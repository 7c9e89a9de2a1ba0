import Txtcel.Properties.Messages

/-!
# Typed bodies

The program stores a body as bytes under a `kind`; clients read it as a typed value
(`content/body.rs`, and the typed half of `content/mod.rs`):

* `ContentBody`: what a type of bodies provides; struct-shaped bodies get it from their Borsh
  encoding, and plain text is the bytes themselves;
* `decodeBody_eq_ok`: a node reads as a value exactly when it has the kind of its type and the body
  that the value is written as;
* `typed_message`: a posted value is read back along every run until its author appends something to
  it or closes it. From an append on it reads as nothing, and never as another value.
-/

namespace Txtcel

open Lib Exec Borsh

/-! ## 1. `content/body.rs` -/

/-- `KIND_TEXT` -/
def kindText : UInt16 := 0

namespace ContentKind

def toU16 : ContentKind → UInt16
  | text => kindText
  | unknown value => value

/-- **A raw kind survives**, known or not. -/
@[simp] theorem toU16_fromU16 (value : UInt16) : (fromU16 value).toU16 = value := by
  unfold fromU16
  split
  · rename_i h
    exact h.symm
  · rfl

/-- A kind survives, unless it is the raw value of a known one. -/
theorem fromU16_toU16 {k : ContentKind} : fromU16 k.toU16 = k ↔ k ≠ unknown kindText := by
  cases k with
  | text => exact ⟨nofun, fun _ => rfl⟩
  | unknown value =>
    show (if value = kindText then text else unknown value) = unknown value ↔ _
    split
    · rename_i h
      subst h
      exact ⟨nofun, fun h => absurd rfl h⟩
    · rename_i h
      exact ⟨fun _ he => h (unknown.inj he), fun _ => rfl⟩

end ContentKind

/-- `trait ContentBody` -/
class ContentBody (B : Type) where
  kind : UInt16
  toBody : B → Except ProgramError Bytes
  fromBody : Bytes → Except ProgramError B
  validate : B → Except ProgramError Unit

/-- `trait BorshContentBody` -/
class BorshContentBody (B : Type) extends Borsh B where
  kind : UInt16
  validate : B → Except ProgramError Unit := fun _ => .ok ()

/-- The blanket implementation. The serializer checks the lengths it writes. -/
instance {B : Type} [BorshContentBody B] [DecidablePred (Fits : B → Prop)] : ContentBody B where
  kind := BorshContentBody.kind B
  toBody x := if Fits x then .ok (serialize x) else .error ProtocolError.invalidAccountData
  fromBody body :=
    match tryFromSlice B body with
    | some x => .ok x
    | none => .error ProtocolError.invalidAccountData
  validate := BorshContentBody.validate

structure TextBody where
  text : Bytes
  deriving DecidableEq

instance : ContentBody TextBody where
  kind := kindText
  toBody x := .ok x.text
  fromBody body := .ok ⟨body⟩
  validate x := if maxBodyLen < x.text.length then .error ProtocolError.textTooLong else .ok ()

/-! ## 2. The typed half of `content/mod.rs` -/

namespace ContentNode

variable {B : Type} [ContentBody B]

def fromBody (header : ContentHeader) (body : B) : Except ProgramError ContentNode := do
  ContentBody.validate body
  let bytes ← ContentBody.toBody body
  pure { header, kind := ContentBody.kind B, body := bytes }

def decodeBody (B : Type) [ContentBody B] (x : ContentNode) : Except ProgramError B :=
  if x.kind ≠ ContentBody.kind B then .error ProtocolError.invalidTag
  else ContentBody.fromBody x.body

end ContentNode

/-! ## 3. Reading a body back -/

/-- A type of bodies that reads exactly what it writes. -/
class LawfulContentBody (B : Type) [ContentBody B] : Prop where
  fromBody_eq_ok : ∀ {bs : Bytes} {x : B},
    ContentBody.fromBody bs = .ok x ↔ ContentBody.toBody x = .ok bs

instance : LawfulContentBody TextBody where
  fromBody_eq_ok {bs x} := by
    obtain ⟨text⟩ := x
    show Except.ok (⟨bs⟩ : TextBody) = .ok ⟨text⟩ ↔ Except.ok text = .ok bs
    simp [eq_comm]

section BorshBody

variable {B : Type} [BorshContentBody B] [DecidablePred (Fits : B → Prop)] {bs : Bytes} {x : B}

theorem toBody_eq_ok : ContentBody.toBody x = .ok bs ↔ Fits x ∧ bs = serialize x := by
  show (if Fits x then Except.ok (serialize x) else .error _) = .ok bs ↔ _
  split
  · rename_i h
    rw [Except.ok.injEq, eq_comm]
    exact (and_iff_right h).symm
  · rename_i h
    exact ⟨nofun, fun hx => absurd hx.1 h⟩

theorem fromBody_eq_ok : ContentBody.fromBody bs = .ok x ↔ tryFromSlice B bs = some x := by
  simp only [ContentBody.fromBody]
  cases tryFromSlice B bs with
  | none => exact ⟨nofun, nofun⟩
  | some y => rw [Except.ok.injEq, Option.some.injEq]

theorem fromBody_eq_error (h : tryFromSlice B bs = none) :
    (ContentBody.fromBody bs : Except ProgramError B) =
      .error ProtocolError.invalidAccountData := by
  simp only [ContentBody.fromBody, h]

/-- **A Borsh body reads exactly what it writes.** -/
instance : LawfulContentBody B where
  fromBody_eq_ok := by
    intro bs x
    rw [fromBody_eq_ok, toBody_eq_ok, tryFromSlice_eq_some]

end BorshBody

namespace ContentNode

variable {B : Type} {n : ContentNode}

/-- **A node reads as a value exactly when it has the kind of its type and the body that the value
    is written as.** -/
theorem decodeBody_eq_ok [ContentBody B] [LawfulContentBody B] {x : B} :
    n.decodeBody B = .ok x ↔ n.kind = ContentBody.kind B ∧ ContentBody.toBody x = .ok n.body := by
  unfold decodeBody
  rw [← LawfulContentBody.fromBody_eq_ok]
  split
  · rename_i h
    exact ⟨nofun, fun hx => absurd hx.1 h⟩
  · rename_i h
    exact (and_iff_right (not_not.mp h)).symm

theorem decodeBody_of_ne [ContentBody B] (h : n.kind ≠ ContentBody.kind B) :
    n.decodeBody B = .error ProtocolError.invalidTag := if_pos h

theorem fromBody_eq_ok [ContentBody B] {header : ContentHeader} {x : B} :
    fromBody header x = .ok n ↔ ContentBody.validate x = .ok () ∧ n.header = header ∧
      n.kind = ContentBody.kind B ∧ ContentBody.toBody x = .ok n.body := by
  unfold fromBody
  constructor
  · intro h
    cases hv : ContentBody.validate x with
    | error e => rw [hv] at h; cases h
    | ok u =>
      cases hb : ContentBody.toBody x with
      | error e => rw [hv, hb] at h; cases h
      | ok bs =>
        rw [hv, hb] at h
        cases h
        exact ⟨rfl, rfl, rfl, rfl⟩
  · intro ⟨hv, hh, hk, hb⟩
    rw [hv, hb, ← hh, ← hk]
    rfl

/-- **What a node was made of is what it reads as.** -/
theorem decodeBody_fromBody [ContentBody B] [LawfulContentBody B] {header : ContentHeader} {x : B}
    (h : fromBody header x = .ok n) : n.decodeBody B = .ok x := by
  obtain ⟨-, -, hk, hb⟩ := fromBody_eq_ok.mp h
  exact decodeBody_eq_ok.mpr ⟨hk, hb⟩

/-- A Borsh body with something behind it does not read. -/
theorem decodeBody_longer [BorshContentBody B] [DecidablePred (Fits : B → Prop)] {m : ContentNode} {x : B}
    (h : n.decodeBody B = .ok x) (hkind : m.kind = n.kind) (hbody : n.body <+: m.body)
    (hne : m.body ≠ n.body) : m.decodeBody B = .error ProtocolError.invalidAccountData := by
  obtain ⟨hk, hb⟩ := decodeBody_eq_ok.mp h
  obtain ⟨hfits, hbytes⟩ := toBody_eq_ok.mp hb
  obtain ⟨r, hr⟩ := hbody
  have hrne : r ≠ [] := by
    rintro rfl
    exact hne (hr.symm.trans (List.append_nil _))
  rw [decodeBody, if_neg (not_not.mpr (hkind.trans hk)), ← hr, hbytes]
  exact fromBody_eq_error (tryFromSlice_append hfits hrne)

/-- **A Borsh body that arrives in parts reads when all of it is there**, and not before. -/
theorem decodeBody_part [BorshContentBody B] [DecidablePred (Fits : B → Prop)] {x : B} (hfits : Fits x)
    (hkind : n.kind = ContentBody.kind B) (hpart : n.body <+: serialize x) :
    n.decodeBody B =
      if n.body = serialize x then .ok x else .error ProtocolError.invalidAccountData := by
  split
  · rename_i h
    exact decodeBody_eq_ok.mpr ⟨hkind, toBody_eq_ok.mpr ⟨hfits, h⟩⟩
  · rename_i h
    rw [decodeBody, if_neg (not_not.mpr hkind)]
    exact fromBody_eq_error <| tryFromSlice_of_prefix hfits hpart h

end ContentNode

/-- The check of `fill_slot` is the one of the type. -/
theorem validateText_eq {text : Bytes} {σ : Ledger} : validateText text σ =
    (ContentBody.validate (TextBody.mk text)).map fun u => (u, σ) := by
  simp only [validateText, failIf, ContentBody.validate]
  split <;> rfl

/-! ## 4. Typed messages along a run -/

variable {R : Runtime} {sv : Sysvars} {accounts : List AccountInfo} {σ σ' σ₁ : Ledger}
  {k : Pubkey} {m : ContentNode}

/-- A chunk was appended to the message at `k`, by its author and in time. -/
def AppendedTo (k : Pubkey) (tr : List (Ledger × Event × Ledger)) : Prop :=
  ∃ s ∈ tr, ∃ m m', Appends k m m' s.2.1

/-- The body of a message that is not closed is the same until something is appended to it. -/
theorem body_kept {tr : List (Ledger × Event × Ledger)} (h : (program R).Reach anyStep σ)
    (hm : σ.cell R k = .holds (.content m)) (hp : (program R).Path anyStep σ tr σ')
    (hopen : ∀ s ∈ tr, ¬ Closes k m.header.author s.2.1) :
    ∃ m', σ'.cell R k = .holds (.content m') ∧ Extends m m' ∧
      (m'.body = m.body ∨ AppendedTo k tr) := by
  induction hp with
  | nil => exact ⟨m, hm, .refl m, .inl rfl⟩
  | snoc hp hs hok ih =>
    obtain ⟨m₁, hm₁, hext, hbody⟩ := ih fun s hs => hopen s (List.mem_append_left _ hs)
    have hlast := hopen _ (List.mem_append_right _ (List.mem_singleton_self _))
    have hstep := reach_messageStep (hp.reach h) hs hm₁
    rename_i tr _ υ e
    have hbefore : AppendedTo k tr → ∀ x, AppendedTo k (tr ++ [x]) := by
      intro ⟨s, hs, happ⟩ x
      exact ⟨s, List.mem_append_left _ hs, happ⟩
    generalize hy : υ.cell R k = y at hstep
    cases hstep with
    | keep => exact ⟨m₁, rfl, hext, hbody.imp_right fun happ => hbefore happ _⟩
    | append m' happ =>
      exact ⟨m', rfl, hext.trans happ.extends,
        .inr ⟨_, List.mem_append_right _ (List.mem_singleton_self _), m₁, m', happ⟩⟩
    | close hc => exact absurd (hext.header ▸ hc) hlast

/-- A text message of a reachable store is one that the constructor of text nodes makes. -/
theorem text_message (h : (program R).Reach anyStep σ) (hm : σ.cell R k = .holds (.content m))
    (hkind : m.kind = kindText) : ContentNode.fromBody m.header (TextBody.mk m.body) = .ok m := by
  refine ContentNode.fromBody_eq_ok.mpr ⟨if_neg ?_, rfl, hkind, rfl⟩
  exact Nat.not_lt.mpr (reach_body_le h hm)

/-- **Main statement**: the post of a Borsh body stores a node that reads as it. Along every run in
    which its author does not close the node, it reads as the same value as long as its body is the
    same, and otherwise -- its author appended to it -- as no value; and as a body of another kind
    it never reads. -/
theorem typed_message {B : Type} [BorshContentBody B] [DecidablePred (Fits : B → Prop)]
    {header : ContentHeader} {x : B} {n : ContentNode} {candidates : List CandidateSlot}
    {ti : UInt16} {ai : UInt8} {rs : UInt32} {rp : UInt8} {maxFee : UInt64}
    (h : (program R).Reach anyStep σ) (hn : ContentNode.fromBody header x = .ok n)
    (hs : (program R).step σ
      (.call sv accounts (.fillSlot n.kind n.body candidates ti ai rs rp maxFee)) σ₁) :
    ∃ k m, σ.Free k ∧ σ₁.cell R k = .holds (.content m) ∧ m.decodeBody B = .ok x ∧
      ∀ tr σ', (program R).Path anyStep σ₁ tr σ' →
        (∀ s ∈ tr, ¬ Closes k m.header.author s.2.1) →
        ∃ m', σ'.cell R k = .holds (.content m') ∧ m'.header = m.header ∧
          (m'.body = m.body ∧ m'.decodeBody B = .ok x ∨
            AppendedTo k tr ∧ m'.decodeBody B = .error ProtocolError.invalidAccountData) ∧
          ∀ (C : Type) [ContentBody C], ContentBody.kind C ≠ ContentBody.kind B →
            m'.decodeBody C = .error ProtocolError.invalidTag := by
  obtain ⟨-, -, hkind, hbody⟩ := ContentNode.fromBody_eq_ok.mp hn
  obtain ⟨d, hd, hpost, -, -, hc⟩ := processFillSlot_ok (reach_tidy h) hs.2
  have hposted := hd.posted hc
  rw [hpost] at hposted
  obtain ⟨k, t, w, c, -, -, -, -, -, hfree, hcell⟩ := hposted
  have hdec : ContentNode.decodeBody B _ = .ok x :=
    ContentNode.decodeBody_eq_ok.mpr ⟨hkind, hbody⟩
  refine ⟨k, _, hfree, hcell, hdec, fun tr σ' hp hopen => ?_⟩
  obtain ⟨m', hm', hext, happ⟩ := body_kept (.step h hs trivial) hcell hp hopen
  refine ⟨m', hm', hext.header, ?_, fun C _ hC => ?_⟩
  · by_cases hsame : m'.body = n.body
    · exact .inl ⟨hsame, ContentNode.decodeBody_eq_ok.mpr
        ⟨hext.kind.trans hkind, hbody.trans (congrArg Except.ok hsame.symm)⟩⟩
    · exact .inr ⟨happ.resolve_left hsame,
        ContentNode.decodeBody_longer hdec hext.kind hext.body hsame⟩
  · exact ContentNode.decodeBody_of_ne fun he => hC (he.symm.trans (hext.kind.trans hkind))

/-! ## 5. An image -/

/-- The example of the documentation. -/
structure ImageBody where
  uri : Bytes
  width : UInt32
  height : UInt32

namespace ImageBody

def equiv : ImageBody ≃ Bytes × UInt32 × UInt32 where
  toFun x := (x.uri, x.width, x.height)
  invFun p := ⟨p.1, p.2.1, p.2.2⟩
  left_inv _ := rfl
  right_inv _ := rfl

instance : BorshContentBody ImageBody where
  toBorsh := ofEquiv equiv
  kind := 1

theorem fits_iff (x : ImageBody) : Fits x ↔ x.uri.length < 2 ^ 32 :=
  ⟨fun h => h.1.1, fun h => ⟨fits_bytes h, trivial, trivial⟩⟩

instance : DecidablePred (Fits : ImageBody → Prop) := fun x => decidable_of_iff _ (fits_iff x).symm

end ImageBody

namespace Local

def picture : ImageBody := ⟨[120], 2, 3⟩

/-- `bob` posts it. -/
def postPicture : Call where
  sv := sysvars
  accounts := postBob.accounts
  ix := .fillSlot 1 (serialize picture) [⟨0, 0⟩] 0 0 0 0 1000

theorem postPicture_step : (program localnet).step (afterCalls localnet history genesis)
    postPicture.event (afterCalls localnet [postPicture] (afterCalls localnet history genesis)) :=
  step_afterCalls (ownKeys_of_plain (show [postPicture].all Call.isPlain = true by decide +kernel) _
    (List.mem_singleton_self _)) (by decide +kernel)

end Local

/-- The picture is read back, and not as text. -/
theorem typed_message_picture : ∃ (k : Pubkey) (m : ContentNode),
    (afterCalls localnet [Local.postPicture] (afterCalls localnet Local.history Local.genesis)).cell
      localnet k = .holds (.content m) ∧ m.decodeBody ImageBody = .ok Local.picture := by
  have hnode : ContentNode.fromBody ⟨0, 0, 0, Local.channel, Local.bob, 0, 0, 0⟩ Local.picture =
      .ok ⟨⟨0, 0, 0, Local.channel, Local.bob, 0, 0, 0⟩, 1, serialize Local.picture⟩ := rfl
  obtain ⟨k, m, -, hm, hdec, -⟩ := typed_message (Local.history_reach fun _ _ _ _ => trivial) hnode
    Local.postPicture_step
  exact ⟨k, m, hm, hdec⟩

end Txtcel
