import Txtcel.Forum.Board
import Txtcel.Properties.Followers
import Txtcel.Properties.Gating
import Txtcel.Properties.Likes

/-!
# Reading the board off the ledger

`board R K c`: the message board that the cells show, with likes for the channels in `K`. Each part
of it is read off the cells of one kind (`SameKind`), so an instruction changes only the parts of
the kinds it writes (`Act.sameKind`).
-/

namespace Txtcel

open Lib Function Forum

variable {R : Runtime} {sv : Sysvars} {accounts : List AccountInfo} {σ σ' : Ledger}
  {ix : ProgramInstruction} {K : Set Pubkey} {c c' : Cells} {k t w : Pubkey} {p : Place Pubkey}
  {κ : Kind}

/-! ## 1. The parts -/

/-- The bounds of the program. -/
def limits : Limits where
  title := maxTitleLen
  pages := 2 ^ 32
  slots := contentSlots
  body := maxBodyLen
  window := appendWindowSecs
  likes := 2 ^ 32 - 1
  follows := maxFollows
  rate := maxFeeCutBps.toNat

def platformOf (s : ProgramSettings) : Platform Pubkey where
  admin := s.admin
  treasury := s.treasury
  baseFee := s.baseFeeBps.toNat
  authorFeeCut := s.authorFeeCutBps.toNat
  entryCut := s.entryCutBps.toNat
  likeCut := s.likeCutBps.toNat

def channelOf (x : ThreadNode) : Channel Pubkey where
  author := x.author
  title := x.title
  pages := x.lastAllocSeq.toNat + 1
  messageFee := x.messageFee.toNat
  likeFee := x.likeFee.toNat

def gateOf (a : ThreadAccess) : Gate where
  enabled := a.enabled
  entryFee := a.entryFee.toNat

def placeOf (m : ContentNode) : Place Pubkey := ⟨m.header.thread, m.header.allocSeq, m.header.slot⟩

def messageOf (m : ContentNode) : Message Pubkey where
  author := m.header.author
  kind := m.kind
  body := m.body
  postedAt := m.header.createdAt.toInt
  replyTo := (m.header.replyAllocSeq, m.header.replySlot)

namespace Forum.Role

def status : Role → UInt8
  | member => accessAllowed
  | banned => accessDenied
  | exempt => accessFeeExempt

def ofStatus (s : UInt8) : Option Role := [member, banned, exempt].find? (·.status == s)

theorem ofStatus_eq_some {s : UInt8} {r : Role} : ofStatus s = some r ↔ s = r.status := by
  constructor
  · intro h
    exact (beq_iff_eq.mp (List.find?_some (p := fun r => status r == s) h)).symm
  · intro h
    rw [h]
    cases r <;> decide

end Forum.Role

namespace Cell

def platform? : Cell → Option (Platform Pubkey)
  | .holds (.settings s) => some (platformOf s)
  | _ => none

def channel? : Cell → Option (Channel Pubkey)
  | .holds (.thread x) => some (channelOf x)
  | _ => none

def messageAt (p : Place Pubkey) : Cell → Option (Message Pubkey)
  | .holds (.content m) => if placeOf m = p then some (messageOf m) else none
  | _ => none

end Cell

def settingsAddress (R : Runtime) : Option Pubkey := (deriveSettingsPda R).map (·.1)

def contentAddress (R : Runtime) (p : Place Pubkey) : Option Pubkey :=
  (deriveContentPda R p.channel p.page p.slot).map (·.1)

def likesAddress (R : Runtime) (p : Place Pubkey) : Option Pubkey :=
  (deriveLikesPda R p.channel p.page).map (·.1)

/-- The likes of a place. A place without an address has none. -/
def Cells.likesOf (c : Cells) (R : Runtime) (p : Place Pubkey) : Nat :=
  ((contentAddress R p).bind fun _ => likesAddress R p).elim 0 fun l => (c l).likesAt p.slot

open Classical in
/-- **The board that the cells show.** -/
noncomputable def board (R : Runtime) (K : Set Pubkey) (c : Cells) : Board Pubkey where
  platform := (settingsAddress R).bind fun k => (c k).platform?
  channels t := (c t).channel?
  gates t := (c.accessOf R t).map gateOf
  roles t w := (c.standing R t w).bind Role.ofStatus
  messages := lookup (contentAddress R) Cell.messageAt c
  likes p := if p.channel ∈ K then c.likesOf R p else 0
  follows w := (c.channels R w).toFinset

theorem settingsAddress_eq_some : settingsAddress R = some k ↔ R.HasAddress .settings k := by
  simp only [settingsAddress, Option.map_eq_some_iff, Prod.exists, exists_and_right,
    exists_eq_right]
  rfl

theorem contentAddress_eq_some :
    contentAddress R p = some k ↔ R.HasAddress (.content p.channel p.page p.slot) k := by
  simp only [contentAddress, Option.map_eq_some_iff, Prod.exists, exists_and_right,
    exists_eq_right]
  rfl

theorem likesAddress_eq_some :
    likesAddress R p = some k ↔ R.HasAddress (.likes p.channel p.page) k := by
  simp only [likesAddress, Option.map_eq_some_iff, Prod.exists, exists_and_right, exists_eq_right]
  rfl

/-! ## 2. Each part is of one kind -/

/-- The structures of the kind are the same. -/
def SameKind (κ : Kind) (c c' : Cells) : Prop :=
  ∀ k a, a.kind = κ → (c' k = .holds a ↔ c k = .holds a)

namespace SameKind

theorem refl (κ : Kind) (c : Cells) : SameKind κ c c := fun _ _ _ => Iff.rfl

theorem trans {c'' : Cells} (h : SameKind κ c c') (h' : SameKind κ c' c'') : SameKind κ c c'' :=
  fun k a ha => (h' k a ha).trans (h k a ha)

/-- A write over something of another kind by something of another kind. -/
theorem update {x : Cell} (hold : ∀ a, c k = .holds a → a.kind ≠ κ)
    (hnew : ∀ a, x = .holds a → a.kind ≠ κ) : SameKind κ c (update c k x) := by
  intro j a ha
  by_cases hj : j = k
  · subst hj
    rw [update_self]
    exact ⟨fun h => absurd ha (hnew a h), fun h => absurd ha (hold a h)⟩
  · rw [update_of_ne hj]

theorem opened : SameKind κ c (c.open k) := fun _ _ _ => Cells.open_holds

/-- What is read off cells of one kind. -/
theorem read_eq {B : Type} {read : Cell → B} {d : B} (h : SameKind κ c c')
    (hread : ∀ x, (∀ a, x = .holds a → a.kind ≠ κ) → read x = d) (k : Pubkey) :
    read (c' k) = read (c k) := by
  by_cases hx : ∃ a, c k = .holds a ∧ a.kind = κ
  · obtain ⟨a, ha, hκ⟩ := hx
    rw [ha, (h k a hκ).mpr ha]
  · rw [not_exists] at hx
    rw [hread _ fun a ha hκ => hx a ⟨ha, hκ⟩,
      hread _ fun a ha hκ => hx a ⟨(h k a hκ).mp ha, hκ⟩]

end SameKind

section Parts

theorem platform_same (h : SameKind .settings c c') :
    (board R K c').platform = (board R K c).platform := by
  refine Option.bind_congr fun k _ => h.read_eq (d := none) (fun x hx => ?_) k
  unfold Cell.platform?
  split
  · exact absurd rfl (hx _ rfl)
  · rfl

theorem channels_same (h : SameKind .thread c c') :
    (board R K c').channels = (board R K c).channels := by
  funext t
  show (c' t).channel? = (c t).channel?
  refine h.read_eq (d := none) (fun x hx => ?_) t
  unfold Cell.channel?
  split
  · exact absurd rfl (hx _ rfl)
  · rfl

theorem gates_same (h : SameKind .access c c') : (board R K c').gates = (board R K c).gates := by
  funext t
  show (c'.accessOf R t).map gateOf = (c.accessOf R t).map gateOf
  refine congrArg _ (lookup_congr fun k _ => h.read_eq (d := none) (fun x hx => ?_) k)
  unfold Cell.accessFor
  split
  · exact absurd rfl (hx _ rfl)
  · rfl

theorem roles_same (h : SameKind .entry c c') : (board R K c').roles = (board R K c).roles := by
  funext t w
  refine congrArg (Option.bind · _)
    (lookup_congr fun k _ => h.read_eq (d := none) (fun x hx => ?_) k)
  unfold Cell.entryFor
  split
  · exact absurd rfl (hx _ rfl)
  · rfl

theorem messages_same (h : SameKind .content c c') :
    (board R K c').messages = (board R K c).messages := by
  funext p
  refine lookup_congr fun k _ => h.read_eq (d := none) (fun x hx => ?_) k
  unfold Cell.messageAt
  split
  · exact absurd rfl (hx _ rfl)
  · rfl

theorem likesAt_of_kind {slot : UInt8} {x : Cell} (hx : ∀ a, x = .holds a → a.kind ≠ .likes) :
    x.likesAt slot = 0 := by
  unfold Cell.likesAt
  split
  · exact absurd rfl (hx _ rfl)
  · rfl

theorem likes_same (h : SameKind .likes c c') : (board R K c').likes = (board R K c).likes := by
  funext p
  have hp : c'.likesOf R p = c.likesOf R p := by
    unfold Cells.likesOf
    cases (contentAddress R p).bind fun _ => likesAddress R p with
    | none => rfl
    | some l => exact h.read_eq (fun x hx => likesAt_of_kind hx) l
  simp only [board, hp]

theorem follows_same (h : SameKind .registry c c') :
    (board R K c').follows = (board R K c).follows := by
  funext w
  have hw : c'.following R w = c.following R w := by
    refine lookup_congr fun k _ => h.read_eq (d := none) (fun x hx => ?_) k
    unfold Cell.channelsFor
    split
    · exact absurd rfl (hx _ rfl)
    · rfl
  simp only [board, Cells.channels, hw]

end Parts

end Txtcel
