import Mathlib.Data.Finset.Card
import Mathlib.Logic.Function.Basic
import Txtcel.Lib.Runs

/-!
# A message board

What the program is for, in its own terms and over any type of keys: channels with their authors,
gates and roles, messages in the slots of pages, likes, and who follows what. Nothing here knows of
accounts, addresses, bytes of accounts or lamports.

A `Command` changes the board (`Board.apply`) when the board and the keys that signed allow it
(`Command.Allowed`). `machine` is the board under any sequence of allowed commands.
-/

namespace Txtcel

namespace Forum

open Lib Function

/-! ## 1. The board -/

variable {Key : Type}

/-- The bounds of a board. -/
structure Limits where
  title : Nat
  pages : Nat
  slots : Nat
  body : Nat
  /-- How long a message may be continued. -/
  window : Int
  likes : Nat
  follows : Nat
  rate : Nat

/-- The owner of the board, and the rates it takes. -/
structure Platform (Key : Type) where
  admin : Key
  treasury : Key
  baseFee : Nat
  authorFeeCut : Nat
  entryCut : Nat
  likeCut : Nat

structure Channel (Key : Type) where
  author : Key
  title : List UInt8
  pages : Nat
  messageFee : Nat
  likeFee : Nat

/-- What posting in a channel takes. -/
structure Gate where
  enabled : Bool
  entryFee : Nat

inductive Role where
  | member
  | banned
  /-- A member who pays no message fee. -/
  | exempt
  deriving DecidableEq

/-- Where a message is. -/
structure Place (Key : Type) where
  channel : Key
  page : UInt32
  slot : UInt8
  deriving DecidableEq

structure Message (Key : Type) where
  author : Key
  kind : UInt16
  body : List UInt8
  postedAt : Int
  replyTo : UInt32 × UInt8

@[ext] structure Board (Key : Type) where
  platform : Option (Platform Key)
  channels : Key → Option (Channel Key)
  gates : Key → Option Gate
  roles : Key → Key → Option Role
  messages : Place Key → Option (Message Key)
  likes : Place Key → Nat
  follows : Key → Finset Key

/-- The board before the program is set up. -/
def Board.empty : Board Key where
  platform := none
  channels _ := none
  gates _ := none
  roles _ _ := none
  messages _ := none
  likes _ := 0
  follows _ := ∅

namespace Board

/-- One of the keys that signed is the author of the channel. -/
def RunBy (b : Board Key) (t : Key) (signed : Set Key) : Prop :=
  ∃ c, b.channels t = some c ∧ c.author ∈ signed

/-- Posting in the channel takes a role: its gate is shut, and somebody is a member or can become
    one. -/
def Gated (b : Board Key) (t : Key) : Prop :=
  ∃ g, b.gates t = some g ∧ g.enabled = true ∧
    ((∃ w, b.roles t w = some .member) ∨ 0 < g.entryFee)

/-- The key may post in the channel. -/
def Admits (b : Board Key) (t w : Key) : Prop :=
  b.roles t w ≠ some .banned ∧
    (b.Gated t → b.RunBy t {w} ∨ b.roles t w = some .member ∨ b.roles t w = some .exempt)

/-- The place is in a page of its channel. -/
def Has (b : Board Key) (L : Limits) (p : Place Key) : Prop :=
  (∃ c, b.channels p.channel = some c ∧ p.page.toNat < c.pages) ∧ p.slot.toNat < L.slots

end Board

/-! ## 2. Commands -/

/-- The fields of the platform. -/
inductive PlatformEdit (Key : Type) where
  | admin (k : Key)
  | treasury (k : Key)
  | baseFee (bps : Nat)
  | authorFeeCut (bps : Nat)
  | entryCut (bps : Nat)
  | likeCut (bps : Nat)

/-- The fees of a channel. -/
inductive Price where
  | message (fee : Nat)
  | like (fee : Nat)

/-- The fields of a gate. -/
inductive GateEdit where
  | enabled (b : Bool)
  | entryFee (fee : Nat)

inductive Command (Key : Type) where
  | launch (admin treasury : Key)
  | configure (e : PlatformEdit Key)
  | openChannel (t author : Key) (title : List UInt8) (fee : Nat)
  | addPage (t : Key) (pages : Nat)
  | setPrice (t : Key) (e : Price)
  | installGate (t : Key) (enabled : Bool)
  | setGate (t : Key) (e : GateEdit)
  | assign (t w : Key) (r : Role)
  | dismiss (t w : Key) (r : Role)
  | join (t w : Key)
  | post (p : Place Key) (m : Message Key)
  | append (p : Place Key) (chunk : List UInt8) (now : Int)
  | delete (p : Place Key) (clearLikes : Bool)
  | like (p : Place Key) (w : Key)
  | follow (w t : Key)
  | unfollow (w t : Key)

namespace PlatformEdit

/-- The new rate, if the edit sets one. -/
def rate : PlatformEdit Key → Nat
  | baseFee bps | authorFeeCut bps | entryCut bps | likeCut bps => bps
  | admin _ | treasury _ => 0

def apply (p : Platform Key) : PlatformEdit Key → Platform Key
  | admin k => { p with admin := k }
  | treasury k => { p with treasury := k }
  | baseFee bps => { p with baseFee := bps }
  | authorFeeCut bps => { p with authorFeeCut := bps }
  | entryCut bps => { p with entryCut := bps }
  | likeCut bps => { p with likeCut := bps }

end PlatformEdit

def Price.apply (c : Channel Key) : Price → Channel Key
  | .message fee => { c with messageFee := fee }
  | .like fee => { c with likeFee := fee }

def GateEdit.apply (g : Gate) : GateEdit → Gate
  | .enabled b => { g with enabled := b }
  | .entryFee fee => { g with entryFee := fee }

/-- **When the command may be given**: what the board must say, and who must have signed. -/
def Command.Allowed (L : Limits) (b : Board Key) (signed : Set Key) : Command Key → Prop
  | launch admin _ => b.platform = none ∧ admin ∈ signed
  | configure e => ∃ p, b.platform = some p ∧ p.admin ∈ signed ∧ e.rate ≤ L.rate
  | openChannel t author title _ =>
    b.platform.isSome ∧ b.channels t = none ∧ t ∈ signed ∧ author ∈ signed ∧
      title.length ≤ L.title
  | addPage t pages => (∃ c, b.channels t = some c ∧ c.pages = pages) ∧ pages < L.pages
  | setPrice t _ => b.RunBy t signed
  | installGate t _ => b.gates t = none ∧ b.RunBy t signed
  | setGate t _ => (∃ g, b.gates t = some g) ∧ b.RunBy t signed
  | assign t _ _ => (∃ g, b.gates t = some g) ∧ b.RunBy t signed
  | dismiss t w r => (∃ g, b.gates t = some g) ∧ b.RunBy t signed ∧ b.roles t w = some r
  | join t w => (∃ g, b.gates t = some g ∧ 0 < g.entryFee) ∧ w ∈ signed ∧ b.roles t w = none
  | post p m =>
    b.Has L p ∧ b.messages p = none ∧ m.author ∈ signed ∧ m.body.length ≤ L.body ∧
      b.Admits p.channel m.author
  | append p chunk now => ∃ m, b.messages p = some m ∧ m.author ∈ signed ∧
      (m.body ++ chunk).length ≤ L.body ∧ now ≤ m.postedAt + L.window
  | delete p _ => ∃ m, b.messages p = some m ∧ m.author ∈ signed
  | like p w => (∃ m, b.messages p = some m) ∧ w ∈ signed
  | follow w t => (∃ c, b.channels t = some c) ∧ w ∈ signed ∧ t ∉ b.follows w ∧
      (b.follows w).card < L.follows
  | unfollow w t => w ∈ signed ∧ t ∈ b.follows w

section Apply

variable [DecidableEq Key]

/-- The rates a board starts with. -/
def Platform.initial (admin treasury : Key) : Platform Key :=
  { admin, treasury, baseFee := 1000, authorFeeCut := 1000, entryCut := 1000, likeCut := 1000 }

/-- The board after the command. -/
def Board.apply (L : Limits) (b : Board Key) : Command Key → Board Key
  | .launch admin treasury => { b with platform := some (.initial admin treasury) }
  | .configure e => { b with platform := b.platform.map e.apply }
  | .openChannel t author title fee =>
    let c := { author, title, pages := 1, messageFee := fee, likeFee := 0 }
    { b with channels := update b.channels t (some c) }
  | .addPage t pages =>
    let grow (c : Channel Key) := { c with pages := pages + 1 }
    { b with channels := update b.channels t ((b.channels t).map grow) }
  | .setPrice t e => { b with channels := update b.channels t ((b.channels t).map e.apply) }
  | .installGate t enabled => { b with gates := update b.gates t (some { enabled, entryFee := 0 }) }
  | .setGate t e => { b with gates := update b.gates t ((b.gates t).map e.apply) }
  | .assign t w r => { b with roles := update b.roles t (update (b.roles t) w (some r)) }
  | .dismiss t w _ => { b with roles := update b.roles t (update (b.roles t) w none) }
  | .join t w => { b with roles := update b.roles t (update (b.roles t) w (some .member)) }
  | .post p m => { b with messages := update b.messages p (some m) }
  | .append p chunk _ =>
    let extend (m : Message Key) := { m with body := m.body ++ chunk }
    { b with messages := update b.messages p ((b.messages p).map extend) }
  | .delete p clearLikes =>
    let likes := if clearLikes then update b.likes p 0 else b.likes
    { b with messages := update b.messages p none, likes }
  | .like p _ => { b with likes := update b.likes p (min (b.likes p + 1) L.likes) }
  | .follow w t => { b with follows := update b.follows w (insert t (b.follows w)) }
  | .unfollow w t => { b with follows := update b.follows w ((b.follows w).erase t) }

/-! ## 3. The machine -/

/-- A command, and who signed it. -/
structure Action (Key : Type) where
  signed : Set Key
  command : Command Key

/-- The board under any sequence of allowed commands. -/
def machine (Key : Type) [DecidableEq Key] (L : Limits) : Lts (Board Key) (Action Key) where
  init b := b = .empty
  step b a b' := a.command.Allowed L b a.signed ∧ b' = b.apply L a.command

/-- Nothing is asked of the steps. -/
def anyAction (_ : Board Key) (_ : Action Key) (_ : Board Key) : Prop := True

end Apply

end Forum

end Txtcel
