import Txtcel.Effects
import Txtcel.State.Loaders

/-!
# Cells: the typed store

The abstract view of the ledger. An address is read as a `Cell`: free, somebody else's, or owned by
the program and then empty (a fee shard), zero-filled, exactly one of the nine account structures,
or bytes that are none of them.

* `decode` reads the structure that the first byte names, with no byte left over;
* `cell_eq_holds`: a cell holds a structure exactly when the program owns the account and the data
  is the structure's serialization, under its own tag;
* one lemma for each operation on the ledger says which cells it changes (`cells_*`).
-/

namespace Txtcel

open Lib Borsh Function

/-! ## 1. The nine structures -/

/-- The kinds of account. -/
inductive Kind where
  | content | alloc | thread | settings | access | likes | entry | registry | follower
  deriving DecidableEq

/-- The content of an account of the program. -/
inductive AccountData where
  | content (x : ContentNode)
  | alloc (x : AllocNode)
  | thread (x : ThreadNode)
  | settings (x : ProgramSettings)
  | access (x : ThreadAccess)
  | likes (x : AllocLikes)
  | entry (x : AccessEntry)
  | registry (x : FollowRegistry)
  | follower (x : FollowerShard)

namespace Kind

def tag : Kind → UInt8
  | content => tagContent
  | alloc => tagAlloc
  | thread => tagThread
  | settings => tagSettings
  | access => tagAccess
  | likes => tagLikes
  | entry => tagAccessEntry
  | registry => tagFollowRegistry
  | follower => tagFollowerShard

def ofTag (t : UInt8) : Option Kind :=
  [content, alloc, thread, settings, access, likes, entry, registry, follower].find? (·.tag == t)

theorem ofTag_eq_some {t : UInt8} {k : Kind} : ofTag t = some k ↔ t = k.tag := by
  constructor
  · intro h
    exact (beq_iff_eq.mp (List.find?_some (p := fun k => tag k == t) h)).symm
  · rintro rfl
    cases k <;> decide

/-- Reads a structure of one kind, strictly. -/
def read (bs : Bytes) : Kind → Option AccountData
  | content => (tryFromSlice ContentNode bs).map .content
  | alloc => (tryFromSlice AllocNode bs).map .alloc
  | thread => (tryFromSlice ThreadNode bs).map .thread
  | settings => (tryFromSlice ProgramSettings bs).map .settings
  | access => (tryFromSlice ThreadAccess bs).map .access
  | likes => (tryFromSlice AllocLikes bs).map .likes
  | entry => (tryFromSlice AccessEntry bs).map .entry
  | registry => (tryFromSlice FollowRegistry bs).map .registry
  | follower => (tryFromSlice FollowerShard bs).map .follower

end Kind

namespace AccountData

def kind : AccountData → Kind
  | content _ => .content
  | alloc _ => .alloc
  | thread _ => .thread
  | settings _ => .settings
  | access _ => .access
  | likes _ => .likes
  | entry _ => .entry
  | registry _ => .registry
  | follower _ => .follower

/-- The tag field of the structure. -/
def tag : AccountData → UInt8
  | content x => x.header.tag
  | alloc x => x.tag
  | thread x => x.tag
  | settings x => x.tag
  | access x => x.tag
  | likes x => x.tag
  | entry x => x.tag
  | registry x => x.tag
  | follower x => x.tag

def bytes : AccountData → Bytes
  | content x => serialize x
  | alloc x => serialize x
  | thread x => serialize x
  | settings x => serialize x
  | access x => serialize x
  | likes x => serialize x
  | entry x => serialize x
  | registry x => serialize x
  | follower x => serialize x

def Fits : AccountData → Prop
  | content x => Borsh.Fits x
  | alloc x => Borsh.Fits x
  | thread x => Borsh.Fits x
  | settings x => Borsh.Fits x
  | access x => Borsh.Fits x
  | likes x => Borsh.Fits x
  | entry x => Borsh.Fits x
  | registry x => Borsh.Fits x
  | follower x => Borsh.Fits x

/-- The structure's `size()` for its current contents. -/
def size : AccountData → Nat
  | content x => ContentNode.size x.body.length
  | alloc _ => AllocNode.size
  | thread x => ThreadNode.size x.title.length
  | settings _ => ProgramSettings.size
  | access _ => ThreadAccess.size
  | likes _ => AllocLikes.size
  | entry _ => AccessEntry.size
  | registry x => FollowRegistry.size x.channels.length
  | follower _ => FollowerShard.size

/-- The tag field names the kind, and the vectors are short enough to be written. -/
structure Valid (a : AccountData) : Prop where
  tag_eq : a.tag = a.kind.tag
  fits : a.Fits

theorem length_bytes (a : AccountData) : a.bytes.length = a.size := by
  cases a with
  | content x => exact x.length
  | alloc x => exact x.length
  | thread x => exact x.length
  | settings x => exact x.length
  | access x => exact x.length
  | likes x => exact x.length
  | entry x => exact x.length
  | registry x => exact x.length
  | follower x => exact x.length

/-- Every structure starts with its tag. -/
theorem head_bytes (a : AccountData) : a.bytes.head? = some a.tag := by
  have hu8 : ∀ (x : UInt8) (r : Bytes), (serialize x ++ r).head? = some x := fun x r => by
    show some (UInt8.ofNat (x.toNat % 256)) = _
    simp
  cases a with
  | content x => exact (congrArg List.head? (List.append_assoc _ _ _)).trans (hu8 _ _)
  | _ x => exact hu8 _ _

theorem read_eq_some {bs : Bytes} {k : Kind} {a : AccountData} :
    k.read bs = some a ↔ a.kind = k ∧ a.Fits ∧ bs = a.bytes := by
  cases k <;> simp only [Kind.read, Option.map_eq_some_iff, tryFromSlice_eq_some]
  all_goals
    constructor
    · rintro ⟨x, ⟨hf, hb⟩, rfl⟩
      exact ⟨rfl, hf, hb⟩
    · rintro ⟨hk, hf, hb⟩
      cases a <;> cases hk
      exact ⟨_, ⟨hf, hb⟩, rfl⟩

/-- The structure that the first byte names. -/
def decode (bs : Bytes) : Option AccountData :=
  (bs.head?.bind Kind.ofTag).bind (Kind.read bs)

/-- **`decode` accepts exactly the serializations of valid structures.** -/
theorem decode_eq_some {bs : Bytes} {a : AccountData} :
    decode bs = some a ↔ a.Valid ∧ bs = a.bytes := by
  simp only [decode, Option.bind_eq_some_iff, Kind.ofTag_eq_some, read_eq_some]
  constructor
  · rintro ⟨k, ⟨t, ht, rfl⟩, rfl, hf, rfl⟩
    rw [head_bytes] at ht
    exact ⟨⟨Option.some.inj ht, hf⟩, rfl⟩
  · rintro ⟨⟨htag, hf⟩, rfl⟩
    exact ⟨_, ⟨_, head_bytes a, htag⟩, rfl, hf, rfl⟩

theorem bytes_ne_nil (a : AccountData) : a.bytes ≠ [] := fun h => by
  have := head_bytes a
  rw [h] at this
  cases this

/-- No kind has tag `0`: a zero-filled account is none of the nine. -/
theorem kindTag_ne_zero (k : Kind) : k.tag ≠ 0 := by
  cases k <;> decide

end AccountData

/-- A type of account content. -/
class Account (α : Type) [Borsh α] where
  wrap : α → AccountData
  bytes_wrap : ∀ x, (wrap x).bytes = serialize x
  fits_wrap : ∀ x, (wrap x).Fits ↔ Borsh.Fits x

instance : Account ContentNode := ⟨.content, fun _ => rfl, fun _ => Iff.rfl⟩
instance : Account AllocNode := ⟨.alloc, fun _ => rfl, fun _ => Iff.rfl⟩
instance : Account ThreadNode := ⟨.thread, fun _ => rfl, fun _ => Iff.rfl⟩
instance : Account ProgramSettings := ⟨.settings, fun _ => rfl, fun _ => Iff.rfl⟩
instance : Account ThreadAccess := ⟨.access, fun _ => rfl, fun _ => Iff.rfl⟩
instance : Account AllocLikes := ⟨.likes, fun _ => rfl, fun _ => Iff.rfl⟩
instance : Account AccessEntry := ⟨.entry, fun _ => rfl, fun _ => Iff.rfl⟩
instance : Account FollowRegistry := ⟨.registry, fun _ => rfl, fun _ => Iff.rfl⟩
instance : Account FollowerShard := ⟨.follower, fun _ => rfl, fun _ => Iff.rfl⟩

/-! ## 2. Cells -/

/-- What an address holds, as the program sees it. -/
inductive Cell where
  /-- System-owned and empty. -/
  | free
  /-- Owned by somebody else, or System-owned with data. -/
  | foreign
  /-- Owned by the program, without data. -/
  | vault
  /-- Owned by the program, with data that starts with a zero byte. -/
  | blank
  /-- Owned by the program, with data that is no structure. -/
  | junk
  | holds (a : AccountData)

/-- The cells of all addresses. -/
abbrev Cells := Pubkey → Cell

/-- The cell of an account of the program. -/
def Cell.ofData (bs : Bytes) : Cell :=
  match bs with
  | [] => .vault
  | b :: bs =>
    if b = 0 then .blank
    else match AccountData.decode (b :: bs) with
      | some a => .holds a
      | none => .junk

def Ledger.cell (σ : Ledger) (R : Runtime) : Cells := fun k =>
  if σ.owner k = R.programId then Cell.ofData (σ.data k)
  else if σ.Free k then .free
  else .foreign

namespace Cell

def isFree : Cell → Bool
  | free => true
  | _ => false

theorem isFree_iff {x : Cell} : x.isFree = true ↔ x = free := by
  cases x <;> simp [isFree]

theorem ofData_eq_holds {bs : Bytes} {a : AccountData} :
    ofData bs = .holds a ↔ a.Valid ∧ bs = a.bytes := by
  unfold ofData
  constructor
  · intro h
    split at h
    · cases h
    · split_ifs at h
      split at h
      · rename_i hd
        cases h
        exact AccountData.decode_eq_some.mp hd
      · cases h
  · rintro ⟨hv, rfl⟩
    have hhead := AccountData.head_bytes a
    have hdec := AccountData.decode_eq_some.mpr ⟨hv, rfl⟩
    split
    · rename_i hnil
      exact absurd hnil a.bytes_ne_nil
    · rename_i b bs hb
      have hb0 : b ≠ 0 := by
        rw [hb] at hhead
        rw [Option.some.inj hhead, hv.tag_eq]
        exact AccountData.kindTag_ne_zero _
      rw [hb] at hdec
      rw [if_neg hb0, hdec]

theorem ofData_ne_free (bs : Bytes) : ofData bs ≠ .free := by
  unfold ofData
  repeat' split
  all_goals nofun

theorem ofData_replicate (n : Nat) (h : 0 < n) : ofData (List.replicate n 0) = .blank := by
  cases n with
  | zero => omega
  | succ n => simp [ofData, List.replicate_succ]

end Cell

section Read

variable {R : Runtime} {σ τ : Ledger} {k : Pubkey}

/-- A cell depends on the account's owner and data only. -/
theorem cell_congr (ho : σ.owner k = τ.owner k) (hd : σ.data k = τ.data k) :
    σ.cell R k = τ.cell R k := by
  have hf : σ.Free k ↔ τ.Free k := by rw [Ledger.Free, Ledger.Free, ho, hd]
  simp only [Ledger.cell, ho, hd]
  exact if_congr Iff.rfl rfl (if_congr hf rfl rfl)

theorem cell_of_owner (ho : σ.owner k = R.programId) : σ.cell R k = Cell.ofData (σ.data k) :=
  if_pos ho

/-- **A cell holds a structure** exactly when the program owns the account and its data is the
    structure's serialization. -/
theorem cell_eq_holds {a : AccountData} :
    σ.cell R k = .holds a ↔ σ.owner k = R.programId ∧ a.Valid ∧ σ.data k = a.bytes := by
  unfold Ledger.cell
  split
  · rename_i ho
    rw [Cell.ofData_eq_holds]
    exact ⟨fun h => ⟨ho, h⟩, fun h => h.2⟩
  · rename_i ho
    constructor
    · intro h
      split at h <;> cases h
    · exact fun h => absurd h.1 ho

theorem cell_eq_free : σ.cell R k = .free ↔ σ.Free k := by
  unfold Ledger.cell
  split
  · rename_i ho
    constructor
    · exact fun h => absurd h (Cell.ofData_ne_free _)
    · exact fun h => absurd (ho.symm.trans h.1) R.programId_ne
  · split
    · rename_i hf
      exact ⟨fun _ => hf, fun _ => rfl⟩
    · rename_i hf
      exact ⟨nofun, fun h => absurd h hf⟩

theorem cell_eq_vault : σ.cell R k = .vault ↔ σ.owner k = R.programId ∧ σ.data k = [] := by
  unfold Ledger.cell
  split
  · rename_i ho
    constructor
    · intro h
      refine ⟨ho, ?_⟩
      unfold Cell.ofData at h
      split at h
      · rename_i hd
        exact hd
      · split_ifs at h
        split at h <;> cases h
    · rintro ⟨-, hd⟩
      rw [hd]
      rfl
  · rename_i ho
    constructor
    · intro h
      split at h <;> cases h
    · exact fun h => absurd h.1 ho

/-- What a loader found is what the cell holds. -/
theorem Ledger.Holds.cell {α : Type} [Borsh α] [Account α] {x : α} (h : σ.Holds R k x)
    (htag : (Account.wrap x).tag = (Account.wrap x).kind.tag) :
    σ.cell R k = .holds (Account.wrap x) :=
  cell_eq_holds.mpr ⟨h.owner, ⟨htag, (Account.fits_wrap x).mpr h.fits⟩,
    h.data.trans (Account.bytes_wrap x).symm⟩

/-- Bytes that are not junk leave nothing over after a structure that can be read off them. -/
theorem rest_eq_nil {α : Type} [Borsh α] [Account α] {x : α} {rest : Bytes}
    (hcell : σ.cell R k ≠ .junk) (ho : σ.owner k = R.programId)
    (htag : (Account.wrap x).tag = (Account.wrap x).kind.tag)
    (hsurj : ∀ a : AccountData, a.kind = (Account.wrap x).kind → ∃ y : α, a = Account.wrap y)
    (hd : deserialize (σ.data k) = some (x, rest)) : rest = [] := by
  obtain ⟨hfx, hdata⟩ := deserialize_eq_some.mp hd
  have hhead : (σ.data k).head? = some (Account.wrap x).tag := by
    rw [hdata, ← Account.bytes_wrap, List.head?_append, AccountData.head_bytes]
    rfl
  rw [cell_of_owner ho] at hcell
  cases hdec : AccountData.decode (σ.data k) with
  | none =>
    refine absurd ?_ hcell
    cases hbs : σ.data k with
    | nil => simp [hbs] at hhead
    | cons b bs =>
      rw [hbs] at hhead hdec
      have hb : b ≠ 0 := by
        rw [Option.some.inj hhead, htag]
        exact AccountData.kindTag_ne_zero _
      simp only [Cell.ofData, if_neg hb, hdec]
  | some a =>
    obtain ⟨hv, ha⟩ := AccountData.decode_eq_some.mp hdec
    have htags : a.kind.tag = (Account.wrap x).kind.tag := by
      rw [ha, AccountData.head_bytes] at hhead
      rw [← hv.tag_eq, Option.some.inj hhead, htag]
    have hkind : a.kind = (Account.wrap x).kind :=
      Option.some.inj ((Kind.ofTag_eq_some.mpr rfl).symm.trans (Kind.ofTag_eq_some.mpr htags))
    obtain ⟨y, rfl⟩ := hsurj a hkind
    rw [ha, Account.bytes_wrap, ← List.append_nil (serialize y)] at hdata
    exact (serialize_append_inj ((Account.fits_wrap y).mp hv.fits) hfx hdata).2.symm

/-- The lenient loaders are strict on cells that are not junk. -/
theorem strict_of_cell (h : σ.cell R k ≠ .junk) : σ.Strict R k where
  access _ _ ho htag hd := rest_eq_nil (α := ThreadAccess) h ho htag
    (fun a ha => by cases a <;> cases ha; exact ⟨_, rfl⟩) hd
  entry _ _ ho htag hd := rest_eq_nil (α := AccessEntry) h ho htag
    (fun a ha => by cases a <;> cases ha; exact ⟨_, rfl⟩) hd

end Read

/-! ## 3. What the operations do to the cells -/

/-- A shard is opened where the address is free. -/
def Cells.open (c : Cells) (k : Pubkey) : Cells :=
  if (c k).isFree then update c k .vault else c

section Write

variable {R : Runtime} {σ : Ledger} {p k q : Pubkey} {n r : Nat}

@[simp] theorem cells_pay : (σ.pay p q n).cell R = σ.cell R := rfl

@[simp] theorem cells_collect : (σ.collect r n p q).cell R = σ.cell R := by
  funext k
  exact cell_congr (by rw [Ledger.collect_owner]) (by rw [Ledger.collect_data])

@[simp] theorem cells_split {c : Nat} {a t : Pubkey} : (σ.split r n c p a t).cell R = σ.cell R := by
  funext k
  exact cell_congr (by rw [Ledger.split_owner]) (by rw [Ledger.split_data])

/-- A structure is written into an account of the program. -/
theorem cells_put {α : Type} [Borsh α] [Account α] {x : α} (ho : σ.owner k = R.programId)
    (hv : (Account.wrap x).Valid) :
    (σ.put k x).cell R = update (σ.cell R) k (.holds (Account.wrap x)) := by
  funext j
  by_cases hj : j = k
  · subst hj
    rw [update_self]
    exact cell_eq_holds.mpr ⟨ho, hv, by simp [Account.bytes_wrap]⟩
  · rw [update_of_ne hj]
    exact cell_congr rfl (by simp [hj])

/-- An account is created and written. -/
theorem cells_create_put {α : Type} [Borsh α] [Account α] {x : α} (hv : (Account.wrap x).Valid) :
    ((σ.create p k R.programId r n).put k x).cell R =
      update (σ.cell R) k (.holds (Account.wrap x)) := by
  rw [cells_put (by simp) hv]
  funext j
  by_cases hj : j = k
  · subst hj
    rw [update_self, update_self]
  · rw [update_of_ne hj, update_of_ne hj]
    exact cell_congr (by simp [hj]) (by simp [hj])

/-- A creation changes one address only. -/
theorem cells_create_of_ne {j : Pubkey} (hj : j ≠ k) :
    (σ.create p k R.programId r n).cell R j = σ.cell R j :=
  cell_congr (by simp [hj]) (by simp [hj])

/-- A closed account is free. -/
theorem cells_close : (σ.allot k 0 systemProgram).cell R = update (σ.cell R) k .free := by
  funext j
  by_cases hj : j = k
  · subst hj
    rw [update_self]
    exact cell_eq_free.mpr ⟨by simp, by simp⟩
  · rw [update_of_ne hj]
    exact cell_congr (by simp [hj]) (by simp [hj])

theorem cells_openShard : (σ.openShard R r p k).cell R = Cells.open (σ.cell R) k := by
  unfold Ledger.openShard Cells.open
  by_cases hf : σ.Free k
  · rw [if_pos hf, if_pos (Cell.isFree_iff.mpr (cell_eq_free.mpr hf))]
    funext j
    by_cases hj : j = k
    · subst hj
      rw [update_self]
      exact cell_eq_vault.mpr ⟨by simp, by simp⟩
    · rw [update_of_ne hj, cells_create_of_ne hj]
  · rw [if_neg hf, if_neg fun h => hf (cell_eq_free.mp (Cell.isFree_iff.mp h))]

theorem cells_openShards {a : Pubkey} :
    (σ.openShards R r p k a).cell R = Cells.open (Cells.open (σ.cell R) k) a := by
  rw [Ledger.openShards, cells_openShard, cells_openShard]

/-- Opening shards never touches data: a free account has none. -/
@[simp] theorem Ledger.openShard_data : (σ.openShard R r p k).data = σ.data := by
  unfold Ledger.openShard
  split
  · rename_i hf
    funext j
    by_cases hj : j = k
    · subst hj
      simp [hf.2]
    · simp [hj]
  · rfl

@[simp] theorem Ledger.openShards_data {a : Pubkey} : (σ.openShards R r p k a).data = σ.data := by
  simp [Ledger.openShards]

end Write

namespace Cells

variable (c : Cells) (k j : Pubkey)

/-- Opening a shard changes a free cell into a vault, or nothing. -/
theorem open_apply : c.open k j = c j ∨ (j = k ∧ c j = .free ∧ c.open k j = .vault) := by
  unfold Cells.open
  split
  · rename_i hf
    by_cases hj : j = k
    · subst hj
      exact .inr ⟨rfl, Cell.isFree_iff.mp hf, update_self _ _ _⟩
    · exact .inl (update_of_ne hj _ _)
  · exact .inl rfl

/-- What is not free is not touched. -/
theorem open_of_ne_free {c : Cells} {k j : Pubkey} (h : c j ≠ .free) : c.open k j = c j := by
  rcases c.open_apply k j with h' | ⟨-, hf, -⟩
  · exact h'
  · exact absurd hf h

/-- Structures are the same before and after. -/
theorem open_holds {c : Cells} {k j : Pubkey} {a : AccountData} :
    c.open k j = .holds a ↔ c j = .holds a := by
  rcases c.open_apply k j with h | ⟨-, hf, hv⟩
  · rw [h]
  · rw [hv, hf]
    exact ⟨nofun, nofun⟩

/-- What is free afterwards was free before. -/
theorem free_of_open {c : Cells} {k j : Pubkey} (h : c.open k j = .free) : c j = .free := by
  rcases c.open_apply k j with h' | ⟨-, hf, -⟩
  · rw [← h', h]
  · exact hf

end Cells

end Txtcel
