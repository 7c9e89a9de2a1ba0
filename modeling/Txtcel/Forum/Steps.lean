import Txtcel.Forum.Reading

/-!
# What each act does to the board

`*.Ok.sameKind`: an act writes structures of one or two kinds, and so leaves the other parts of the
board alone. `*.Ok.board`: the board after the act is the board before it with one command applied.
-/

namespace Txtcel

open Lib Function Forum

variable {R : Runtime} {sv : Sysvars} {accounts : List AccountInfo} {σ σ' : Ledger}
  {K : Set Pubkey} {c c' : Cells} {k t w : Pubkey} {p : Place Pubkey} {κ : Kind}

/-! ## 1. The kinds an act writes -/

namespace SameKind

variable {a b : AccountData}

/-- A structure is created where nothing was. -/
theorem create (hk : ∀ a, c k ≠ .holds a) (ha : a.kind ≠ κ) :
    SameKind κ c (Function.update c k (.holds a)) :=
  .update (fun b hb => absurd hb (hk b)) fun b hb => by
    cases hb
    exact ha

/-- A structure is rewritten. -/
theorem rewrite (hk : c k = .holds b) (hb : b.kind ≠ κ) (ha : a.kind ≠ κ) :
    SameKind κ c (Function.update c k (.holds a)) := by
  refine .update (fun d hd => ?_) fun d hd => ?_
  · rw [hk] at hd
    cases hd
    exact hb
  · cases hd
    exact ha

/-- A structure is closed. -/
theorem close (hk : c k = .holds b) (hb : b.kind ≠ κ) : SameKind κ c (Function.update c k .free) := by
  refine .update (fun d hd => ?_) nofun
  rw [hk] at hd
  cases hd
  exact hb

end SameKind

/-- A free cell holds nothing. -/
theorem Ledger.Free.not_holds (h : σ.Free k) (a : AccountData) : σ.cell R k ≠ .holds a := by
  rw [cell_eq_free.mpr h]
  nofun

/-- ... nor does it after shards were opened. -/
theorem Cells.open_not_holds {s : Pubkey} (h : ∀ a, c k ≠ .holds a) (a : AccountData) :
    c.open s k ≠ .holds a := fun ha => h a (Cells.open_holds.mp ha)

section Kinds

theorem InitSettings.Ok.sameKind {d : InitSettings} (h : d.Ok R sv accounts σ σ')
    (h1 : Kind.settings ≠ κ) : SameKind κ (σ.cell R) (σ'.cell R) := by
  rw [h.cells]
  exact .create h.free.not_holds h1

theorem SettingsEdit.Ok.sameKind {d : SettingsEdit} (h : d.Ok R accounts σ σ')
    (h1 : Kind.settings ≠ κ) : SameKind κ (σ.cell R) (σ'.cell R) := by
  have hold := h.holds.cell h.tag
  rw [h.cells]
  exact .rewrite hold h1 h1

theorem RootAlloc.Ok.sameKind {d : RootAlloc} (h : d.Ok R sv accounts σ σ')
    (h1 : Kind.thread ≠ κ) (h2 : Kind.alloc ≠ κ) : SameKind κ (σ.cell R) (σ'.cell R) := by
  rw [h.cells]
  refine (SameKind.opened.trans (.create (a := .thread d.node)
    (Cells.open_not_holds h.thread_free.not_holds) h1)).trans
    (.create (a := .alloc d.page) (fun a => ?_) h2)
  rw [update_of_ne h.alloc_ne]
  exact Cells.open_not_holds h.alloc_free.not_holds a

theorem NextAlloc.Ok.sameKind {d : NextAlloc} (h : d.Ok R sv accounts σ σ')
    (h1 : Kind.thread ≠ κ) (h2 : Kind.alloc ≠ κ) : SameKind κ (σ.cell R) (σ'.cell R) := by
  have hold := h.thread_holds.cell h.thread_tag
  rw [h.cells]
  refine (SameKind.create (a := .alloc d.node) h.page_free.not_holds h2).trans
    (.rewrite (a := .thread d.new) (b := .thread d.old) ?_ h1 h1)
  rw [update_of_ne h.page_ne]
  exact hold

theorem ThreadEdit.Ok.sameKind {d : ThreadEdit} (h : d.Ok R accounts σ σ')
    (h1 : Kind.thread ≠ κ) : SameKind κ (σ.cell R) (σ'.cell R) := by
  have hold := h.holds.cell h.tag
  rw [h.cells]
  exact .rewrite hold h1 h1

theorem InitAccess.Ok.sameKind {d : InitAccess} (h : d.Ok R sv accounts σ σ')
    (h1 : Kind.access ≠ κ) : SameKind κ (σ.cell R) (σ'.cell R) := by
  rw [h.cells]
  exact SameKind.opened.trans (.create (Cells.open_not_holds h.access_free.not_holds) h1)

theorem AccessEdit.Ok.sameKind {d : AccessEdit} (h : d.Ok R accounts σ σ')
    (h1 : Kind.access ≠ κ) : SameKind κ (σ.cell R) (σ'.cell R) := by
  have hold := h.holds.cell h.tag
  rw [h.cells]
  exact .rewrite hold h1 h1

theorem SetEntry.Ok.sameKind {d : SetEntry} (h : d.Ok R sv accounts σ σ')
    (h1 : Kind.entry ≠ κ) (h2 : Kind.access ≠ κ) : SameKind κ (σ.cell R) (σ'.cell R) := by
  have hold := h.access_holds.cell h.access_tag
  have hb := h.before
  rw [h.cells]
  refine SameKind.trans ?_ (.rewrite (a := .access _) (b := .access d.old) ?_ h2 h2)
  · cases hp : d.prev with
    | none =>
      simp only [SetEntry.Before, hp] at hb
      exact .create hb.not_holds h1
    | some s =>
      simp only [SetEntry.Before, hp] at hb
      have he := hb.cell rfl
      exact .rewrite he h1 h1
  · rw [update_of_ne h.access_ne]
    exact hold

theorem RemoveEntry.Ok.sameKind {d : RemoveEntry} (h : d.Ok R accounts σ σ')
    (h1 : Kind.entry ≠ κ) (h2 : Kind.access ≠ κ) : SameKind κ (σ.cell R) (σ'.cell R) := by
  have hold := h.access_holds.cell h.access_tag
  have he := h.entry_holds.cell rfl
  rw [h.cells]
  refine (SameKind.close he h1).trans (.rewrite (a := .access _) (b := .access d.old) ?_ h2 h2)
  rw [update_of_ne h.access_ne]
  exact hold

theorem RequestAccess.Ok.sameKind {d : RequestAccess} (h : d.Ok R sv accounts σ σ')
    (h1 : Kind.entry ≠ κ) (h2 : Kind.access ≠ κ) : SameKind κ (σ.cell R) (σ'.cell R) := by
  have hold := h.access_holds.cell h.access_tag
  rw [h.cells]
  refine (SameKind.opened.trans SameKind.opened).trans (SameKind.trans
    (.create (a := .entry _) (Cells.open_not_holds (Cells.open_not_holds h.entry_free.not_holds)) h1)
    (.rewrite (a := .access _) (b := .access d.old) ?_ h2 h2))
  rw [update_of_ne h.access_ne]
  exact Cells.open_holds.mpr (Cells.open_holds.mpr hold)

theorem FillSlot.Ok.sameKind {d : FillSlot} (h : d.Ok R sv accounts σ σ')
    (h1 : Kind.content ≠ κ) : SameKind κ (σ.cell R) (σ'.cell R) := by
  rw [h.cells]
  exact (SameKind.opened.trans SameKind.opened).trans
    (.create (Cells.open_not_holds (Cells.open_not_holds h.content_free.not_holds)) h1)

theorem AppendContent.Ok.sameKind {d : AppendContent} (h : d.Ok R sv accounts σ σ')
    (h1 : Kind.content ≠ κ) : SameKind κ (σ.cell R) (σ'.cell R) := by
  have hold := h.content_holds.cell h.content_tag
  rw [h.cells]
  split
  · exact SameKind.opened.trans (.rewrite (b := .content d.old) (Cells.open_holds.mpr hold) h1 h1)
  · exact .rewrite hold h1 h1

theorem LikeContent.Ok.sameKind {d : LikeContent} (h : d.Ok R sv accounts σ σ')
    (h1 : Kind.likes ≠ κ) : SameKind κ (σ.cell R) (σ'.cell R) := by
  have hb := h.before
  have hopen : SameKind κ (σ.cell R) (((σ.cell R).open d.treasury).open d.author) :=
    SameKind.opened.trans SameKind.opened
  rw [h.cells]
  refine hopen.trans ?_
  cases hp : d.prev with
  | none =>
    simp only [LikeContent.Before, hp] at hb
    exact .create (Cells.open_not_holds (Cells.open_not_holds hb.1.not_holds)) h1
  | some l =>
    simp only [LikeContent.Before, hp] at hb
    have hl := hb.1.cell hb.2
    exact .rewrite (b := .likes l) (Cells.open_holds.mpr (Cells.open_holds.mpr hl)) h1 h1

theorem CloseContent.Ok.sameKind {d : CloseContent} (h : d.Ok R accounts σ σ')
    (h1 : Kind.content ≠ κ) (h2 : Kind.likes ≠ κ) : SameKind κ (σ.cell R) (σ'.cell R) := by
  have hold := h.holds.cell h.tag
  rw [h.cells]
  unfold CloseContent.clearedCells
  cases hr : d.reset with
  | none => exact .close hold h1
  | some r =>
    have hok := h.reset r hr
    have hl := hok.holds.cell hok.tag
    refine (SameKind.rewrite (a := .likes r.new) (b := .likes r.old) hl h2 h2).trans
      (.close (b := .content d.old) ?_ h1)
    rw [update_of_ne hok.ne]
    exact hold

theorem Subscribe.Ok.sameKind {d : Subscribe} (h : d.Ok R sv accounts σ σ')
    (h1 : Kind.registry ≠ κ) (h2 : Kind.follower ≠ κ) : SameKind κ (σ.cell R) (σ'.cell R) := by
  have hrb := h.registry_before
  have hsb := h.shard_before
  rw [h.cells]
  have hreg : SameKind κ (σ.cell R)
      (update (σ.cell R) d.registry (.holds (.registry d.new))) := by
    cases hp : d.prevRegistry with
    | none =>
      simp only [Subscribe.RegistryBefore, hp] at hrb
      exact .create hrb.not_holds h1
    | some r =>
      simp only [Subscribe.RegistryBefore, hp] at hrb
      have hr := hrb.1.cell hrb.2.1
      exact .rewrite hr h1 h1
  refine hreg.trans ?_
  cases hp : d.prevShard with
  | none =>
    simp only [Subscribe.ShardBefore, hp] at hsb
    refine .create (fun a => ?_) h2
    rw [update_of_ne h.registry_ne.symm]
    exact hsb.1.not_holds a
  | some s =>
    simp only [Subscribe.ShardBefore, hp] at hsb
    have hs := hsb.1.cell hsb.2.1
    refine .rewrite (b := .follower s) ?_ h2 h2
    rw [update_of_ne h.registry_ne.symm]
    exact hs

theorem Unsubscribe.Ok.sameKind {d : Unsubscribe} (h : d.Ok R sv accounts σ σ')
    (h1 : Kind.registry ≠ κ) (h2 : Kind.follower ≠ κ) : SameKind κ (σ.cell R) (σ'.cell R) := by
  have hr := h.registry_holds.cell h.registry_tag
  have hs := h.shard_holds.cell h.shard_tag
  rw [h.cells]
  refine (SameKind.rewrite (a := .registry d.new) (b := .registry d.old) hr h1 h1).trans
    (.rewrite (b := .follower d.oldShard) ?_ h2 h2)
  rw [update_of_ne h.registry_ne.symm]
  exact hs

end Kinds

/-! ## 2. Reading and writing the parts -/

section Parts

variable {x : Cell}

theorem platform_of_address (h : R.HasAddress .settings k) :
    (board R K c).platform = (c k).platform? := by
  show (settingsAddress R).bind _ = _
  rw [settingsAddress_eq_some.mpr h]
  rfl

theorem channels_of_thread {n : ThreadNode} :
    (board R K (update c t (.holds (.thread n)))).channels =
      update (board R K c).channels t (some (channelOf n)) := by
  funext u
  show (update c t _ u).channel? = _
  by_cases hu : u = t
  · subst hu
    rw [update_self, update_self]
    rfl
  · rw [update_of_ne hu, update_of_ne hu]
    rfl

theorem channel_of_cell {n : ThreadNode} (h : c t = .holds (.thread n)) :
    (board R K c).channels t = some (channelOf n) := by
  show (c t).channel? = _
  rw [h]
  rfl

theorem gate_of_accessOf {a : ThreadAccess} (h : c.accessOf R t = some a) :
    (board R K c).gates t = some (gateOf a) := congrArg (Option.map gateOf) h

/-- The access account of one thread is written. -/
theorem gates_of_accessOf {a : ThreadAccess} (h : c'.accessOf R = update (c.accessOf R) t (some a)) :
    (board R K c').gates = update (board R K c).gates t (some (gateOf a)) := by
  funext u
  show (c'.accessOf R u).map gateOf = _
  rw [h]
  by_cases hu : u = t
  · subst hu
    rw [update_self, update_self]
    rfl
  · rw [update_of_ne hu, update_of_ne hu]
    rfl

/-- The status of one wallet is written. -/
theorem roles_of_standing {s : Option UInt8}
    (h : c'.standing R = update (c.standing R) t (update (c.standing R t) w s)) :
    (board R K c').roles =
      update (board R K c).roles t (update ((board R K c).roles t) w (s.bind Role.ofStatus)) := by
  funext u v
  show (c'.standing R u v).bind Role.ofStatus = _
  rw [h]
  by_cases hu : u = t
  · subst hu
    rw [update_self, update_self]
    by_cases hv : v = w
    · subst hv
      rw [update_self, update_self]
    · rw [update_of_ne hv, update_of_ne hv]
      rfl
  · rw [update_of_ne hu, update_of_ne hu]
    rfl

theorem messageAt_self (m : ContentNode) :
    Cell.messageAt (placeOf m) (.holds (.content m)) = some (messageOf m) := if_pos rfl

theorem messageAt_of_ne {m : ContentNode} (h : p ≠ placeOf m) :
    Cell.messageAt p (.holds (.content m)) = none := if_neg (Ne.symm h)

theorem messages_of_address (h : R.HasAddress (.content p.channel p.page p.slot) k) :
    (board R K c).messages p = (c k).messageAt p := lookup_of_addr (contentAddress_eq_some.mpr h)

theorem message_of_cell {m : ContentNode}
    (ha : R.HasAddress (.content m.header.thread m.header.allocSeq m.header.slot) k)
    (hc : c k = .holds (.content m)) :
    (board R K c).messages (placeOf m) = some (messageOf m) := by
  rw [messages_of_address (p := placeOf m) ha, hc]
  exact messageAt_self m

theorem messages_update (ha : R.HasAddress (.content p.channel p.page p.slot) k)
    (hold : ∀ q, q ≠ p → (c k).messageAt q = none) (hnew : ∀ q, q ≠ p → x.messageAt q = none) :
    (board R K (update c k x)).messages = update (board R K c).messages p (x.messageAt p) :=
  lookup_update (contentAddress_eq_some.mpr ha) hold hnew

end Parts

/-! ## 3. The board after each act -/

section Acts

theorem InitSettings.Ok.applies {d : InitSettings} (h : d.Ok R sv accounts σ σ') :
    board R K (σ'.cell R) =
      (board R K (σ.cell R)).apply limits (.launch d.authority d.treasury) := by
  refine Board.ext ?_ (channels_same (h.sameKind nofun)) (gates_same (h.sameKind nofun))
    (roles_same (h.sameKind nofun)) (messages_same (h.sameKind nofun))
    (likes_same (h.sameKind nofun)) (follows_same (h.sameKind nofun))
  rw [platform_of_address h.addr, h.cells, update_self]
  rfl

theorem SettingsEdit.Ok.applies {d : SettingsEdit} {e : PlatformEdit Pubkey}
    (h : d.Ok R accounts σ σ') (he : platformOf d.new = e.apply (platformOf d.old)) :
    board R K (σ'.cell R) = (board R K (σ.cell R)).apply limits (.configure e) := by
  have hold := h.holds.cell h.tag
  refine Board.ext ?_ (channels_same (h.sameKind nofun)) (gates_same (h.sameKind nofun))
    (roles_same (h.sameKind nofun)) (messages_same (h.sameKind nofun))
    (likes_same (h.sameKind nofun)) (follows_same (h.sameKind nofun))
  show _ = (board R K (σ.cell R)).platform.map e.apply
  rw [platform_of_address h.addr, platform_of_address h.addr, h.cells, update_self, hold]
  exact congrArg some he

theorem RootAlloc.Ok.applies {d : RootAlloc} (h : d.Ok R sv accounts σ σ') :
    board R K (σ'.cell R) = (board R K (σ.cell R)).apply limits
      (.openChannel d.thread d.payer d.title d.messageFee.toNat) := by
  refine Board.ext (platform_same (h.sameKind nofun nofun)) ?_
    (gates_same (h.sameKind nofun nofun)) (roles_same (h.sameKind nofun nofun))
    (messages_same (h.sameKind nofun nofun)) (likes_same (h.sameKind nofun nofun))
    (follows_same (h.sameKind nofun nofun))
  have halloc : SameKind .thread
      (update ((σ.cell R).open d.treasury) d.thread (.holds (.thread d.node))) (σ'.cell R) := by
    rw [h.cells]
    refine .create (a := .alloc d.page) (fun a => ?_) nofun
    rw [update_of_ne h.alloc_ne]
    exact Cells.open_not_holds h.alloc_free.not_holds a
  rw [channels_same halloc, channels_of_thread, channels_same SameKind.opened]
  rfl

theorem NextAlloc.Ok.applies {d : NextAlloc} (h : d.Ok R sv accounts σ σ') :
    board R K (σ'.cell R) = (board R K (σ.cell R)).apply limits
      (.addPage d.thread d.newSeq.toNat) := by
  have hold := h.thread_holds.cell h.thread_tag
  refine Board.ext (platform_same (h.sameKind nofun nofun)) ?_
    (gates_same (h.sameKind nofun nofun)) (roles_same (h.sameKind nofun nofun))
    (messages_same (h.sameKind nofun nofun)) (likes_same (h.sameKind nofun nofun))
    (follows_same (h.sameKind nofun nofun))
  have hpage : SameKind .thread (σ.cell R)
      (update (σ.cell R) d.page (.holds (.alloc d.node))) :=
    .create h.page_free.not_holds nofun
  show _ = update (board R K (σ.cell R)).channels d.thread
    (((board R K (σ.cell R)).channels d.thread).map _)
  rw [h.cells, channels_of_thread, channels_same hpage, channel_of_cell hold]
  rfl

theorem ThreadEdit.Ok.applies {d : ThreadEdit} {e : Price} (h : d.Ok R accounts σ σ')
    (he : channelOf d.new = e.apply (channelOf d.old)) :
    board R K (σ'.cell R) = (board R K (σ.cell R)).apply limits (.setPrice d.thread e) := by
  have hold := h.holds.cell h.tag
  refine Board.ext (platform_same (h.sameKind nofun)) ?_ (gates_same (h.sameKind nofun))
    (roles_same (h.sameKind nofun)) (messages_same (h.sameKind nofun))
    (likes_same (h.sameKind nofun)) (follows_same (h.sameKind nofun))
  show _ = update (board R K (σ.cell R)).channels d.thread
    (((board R K (σ.cell R)).channels d.thread).map e.apply)
  rw [h.cells, channels_of_thread, channel_of_cell hold, he]
  rfl

theorem InitAccess.Ok.applies {d : InitAccess} (h : d.Ok R sv accounts σ σ') :
    board R K (σ'.cell R) = (board R K (σ.cell R)).apply limits
      (.installGate d.thread d.enabled) := by
  refine Board.ext (platform_same (h.sameKind nofun)) (channels_same (h.sameKind nofun)) ?_
    (roles_same (h.sameKind nofun)) (messages_same (h.sameKind nofun))
    (likes_same (h.sameKind nofun)) (follows_same (h.sameKind nofun))
  refine gates_of_accessOf (a := d.new) ?_
  rw [h.cells, accessOf_update h.access_addr, accessOf_open]
  · exact congrArg _ (accessFor_self (a := d.new))
  · intro t _
    have hfree : ∀ a, (σ.cell R).open d.treasury d.access ≠ .holds a :=
      Cells.open_not_holds h.access_free.not_holds
    exact accessFor_of_not_holds t hfree
  · exact fun t ht => accessFor_of_ne (a := d.new) ht

theorem AccessEdit.Ok.applies {d : AccessEdit} {e : GateEdit} (h : d.Ok R accounts σ σ')
    (he : gateOf d.new = e.apply (gateOf d.old)) (ht : d.new.thread = d.old.thread) :
    board R K (σ'.cell R) = (board R K (σ.cell R)).apply limits (.setGate d.old.thread e) := by
  have hold := h.holds.cell h.tag
  have hgate : (σ.cell R).accessOf R d.old.thread = some d.old :=
    accessOf_eq_some.mpr ⟨_, h.addr, hold, rfl⟩
  refine Board.ext (platform_same (h.sameKind nofun)) (channels_same (h.sameKind nofun)) ?_
    (roles_same (h.sameKind nofun)) (messages_same (h.sameKind nofun))
    (likes_same (h.sameKind nofun)) (follows_same (h.sameKind nofun))
  show _ = update (board R K (σ.cell R)).gates d.old.thread
    (((board R K (σ.cell R)).gates d.old.thread).map e.apply)
  rw [gate_of_accessOf hgate, Option.map_some, ← he]
  refine gates_of_accessOf (a := d.new) ?_
  rw [h.cells, accessOf_update h.addr]
  · rw [← ht]
    exact congrArg _ (accessFor_self (a := d.new))
  · intro t htt
    rw [hold]
    exact accessFor_of_ne htt
  · exact fun t htt => accessFor_of_ne (a := d.new) (ht ▸ htt)

/-- The gate is the same whatever the counter says. -/
theorem gates_of_shift {a : ThreadAccess} {n : Int} (ha : c.accessOf R t = some a)
    (h : c'.accessOf R = update (c.accessOf R) t (some (a.shift n))) :
    (board R K c').gates = (board R K c).gates := by
  rw [gates_of_accessOf h, show gateOf (a.shift n) = gateOf a from rfl, ← gate_of_accessOf ha,
    update_eq_self]

theorem SetEntry.Ok.applies {d : SetEntry} {r : Role} (h : d.Ok R sv accounts σ σ')
    (hr : d.status = r.status) :
    board R K (σ'.cell R) = (board R K (σ.cell R)).apply limits
      (.assign d.old.thread d.wallet r) := by
  refine Board.ext (platform_same (h.sameKind nofun nofun))
    (channels_same (h.sameKind nofun nofun)) (gates_of_shift h.accessOf.1 h.accessOf.2) ?_
    (messages_same (h.sameKind nofun nofun)) (likes_same (h.sameKind nofun nofun))
    (follows_same (h.sameKind nofun nofun))
  rw [roles_of_standing h.standing, Option.bind_some, Role.ofStatus_eq_some.mpr hr]
  rfl

theorem RemoveEntry.Ok.applies {d : RemoveEntry} {r : Role} (h : d.Ok R accounts σ σ') :
    board R K (σ'.cell R) = (board R K (σ.cell R)).apply limits
      (.dismiss d.old.thread d.wallet r) := by
  refine Board.ext (platform_same (h.sameKind nofun nofun))
    (channels_same (h.sameKind nofun nofun)) (gates_of_shift h.accessOf.1 h.accessOf.2)
    (roles_of_standing h.standing.2) (messages_same (h.sameKind nofun nofun))
    (likes_same (h.sameKind nofun nofun)) (follows_same (h.sameKind nofun nofun))

theorem RequestAccess.Ok.applies {d : RequestAccess} (h : d.Ok R sv accounts σ σ') :
    board R K (σ'.cell R) = (board R K (σ.cell R)).apply limits (.join d.thread d.payer) :=
  Board.ext (platform_same (h.sameKind nofun nofun)) (channels_same (h.sameKind nofun nofun))
    (gates_of_shift h.accessOf.1 h.accessOf.2) (roles_of_standing h.standing.2)
    (messages_same (h.sameKind nofun nofun)) (likes_same (h.sameKind nofun nofun))
    (follows_same (h.sameKind nofun nofun))

theorem FillSlot.Ok.applies {d : FillSlot} (h : d.Ok R sv accounts σ σ') :
    board R K (σ'.cell R) = (board R K (σ.cell R)).apply limits
      (.post (placeOf (d.message sv)) (messageOf (d.message sv))) := by
  refine Board.ext (platform_same (h.sameKind nofun)) (channels_same (h.sameKind nofun))
    (gates_same (h.sameKind nofun)) (roles_same (h.sameKind nofun)) ?_
    (likes_same (h.sameKind nofun)) (follows_same (h.sameKind nofun))
  have hfree : ∀ a, ((σ.cell R).open d.treasury).open d.author d.content ≠ .holds a :=
    Cells.open_not_holds (Cells.open_not_holds h.content_free.not_holds)
  have hnone : ∀ q, (((σ.cell R).open d.treasury).open d.author d.content).messageAt q = none := by
    intro q
    unfold Cell.messageAt
    split
    · rename_i hm
      exact absurd hm (hfree _)
    · rfl
  rw [h.cells, messages_update (p := placeOf (d.message sv)) h.content_addr (fun q _ => hnone q)
    fun q => messageAt_of_ne, messageAt_self, messages_same (SameKind.opened.trans .opened)]
  rfl

theorem AppendContent.Ok.applies {d : AppendContent} (h : d.Ok R sv accounts σ σ') :
    board R K (σ'.cell R) = (board R K (σ.cell R)).apply limits
      (.append (placeOf d.old) d.chunk sv.unixTimestamp.toInt) := by
  have hold := h.content_holds.cell h.content_tag
  refine Board.ext (platform_same (h.sameKind nofun)) (channels_same (h.sameKind nofun))
    (gates_same (h.sameKind nofun)) (roles_same (h.sameKind nofun)) ?_
    (likes_same (h.sameKind nofun)) (follows_same (h.sameKind nofun))
  have hopened : ∀ c, c = σ.cell R ∨ c = (σ.cell R).open d.treasury →
      (board R K (update c d.content (.holds (.content d.new)))).messages =
        update (board R K (σ.cell R)).messages (placeOf d.old) (some (messageOf d.new)) := by
    intro c hc
    have hcell : c d.content = .holds (.content d.old) := by
      rcases hc with rfl | rfl
      · exact hold
      · exact Cells.open_holds.mpr hold
    have hsame : SameKind .content (σ.cell R) c := by
      rcases hc with rfl | rfl
      · exact .refl _ _
      · exact .opened
    rw [messages_update (p := placeOf d.old) h.content_addr (fun q hq => ?_)
      fun q => messageAt_of_ne (m := d.new), messages_same hsame]
    · exact congrArg _ (messageAt_self d.new)
    · rw [hcell]
      exact messageAt_of_ne hq
  show _ = update (board R K (σ.cell R)).messages (placeOf d.old)
    (((board R K (σ.cell R)).messages (placeOf d.old)).map _)
  rw [message_of_cell h.content_addr hold, h.cells]
  split
  · exact hopened _ (.inr rfl)
  · exact hopened _ (.inl rfl)

theorem Subscribe.Ok.applies {d : Subscribe} (h : d.Ok R sv accounts σ σ') :
    board R K (σ'.cell R) = (board R K (σ.cell R)).apply limits (.follow d.user d.thread) := by
  refine Board.ext (platform_same (h.sameKind nofun nofun))
    (channels_same (h.sameKind nofun nofun)) (gates_same (h.sameKind nofun nofun))
    (roles_same (h.sameKind nofun nofun)) (messages_same (h.sameKind nofun nofun))
    (likes_same (h.sameKind nofun nofun)) ?_
  obtain ⟨hold, hnew⟩ := h.following
  funext w
  show ((σ'.cell R).channels R w).toFinset =
    update (fun w => ((σ.cell R).channels R w).toFinset) d.user
      (insert d.thread ((σ.cell R).channels R d.user).toFinset) w
  by_cases hw : w = d.user
  · subst hw
    rw [update_self, Cells.channels, Cells.channels, hold, hnew, update_self]
    ext u
    simp [Subscribe.new]
  · rw [update_of_ne hw, Cells.channels, Cells.channels, hnew, update_of_ne hw]

theorem Unsubscribe.Ok.applies {d : Unsubscribe} (h : d.Ok R sv accounts σ σ')
    (hnodup : d.old.channels.Nodup) :
    board R K (σ'.cell R) = (board R K (σ.cell R)).apply limits (.unfollow d.user d.thread) := by
  refine Board.ext (platform_same (h.sameKind nofun nofun))
    (channels_same (h.sameKind nofun nofun)) (gates_same (h.sameKind nofun nofun))
    (roles_same (h.sameKind nofun nofun)) (messages_same (h.sameKind nofun nofun))
    (likes_same (h.sameKind nofun nofun)) ?_
  obtain ⟨hold, hnew⟩ := h.following
  funext w
  show ((σ'.cell R).channels R w).toFinset =
    update (fun w => ((σ.cell R).channels R w).toFinset) d.user
      (((σ.cell R).channels R d.user).toFinset.erase d.thread) w
  by_cases hw : w = d.user
  · subst hw
    rw [update_self, Cells.channels, Cells.channels, hold, hnew, update_self]
    show (swapRemove d.old.channels d.pos).toFinset = d.old.channels.toFinset.erase d.thread
    ext u
    rw [List.mem_toFinset, (swapRemove_position h.pos_eq).mem_iff, hnodup.mem_erase_iff,
      Finset.mem_erase, List.mem_toFinset]
  · rw [update_of_ne hw, Cells.channels, Cells.channels, hnew, update_of_ne hw]

/-! ### Likes -/

theorem likesOf_eq {l : Pubkey} (hk : R.HasAddress (.content p.channel p.page p.slot) k)
    (hl : R.HasAddress (.likes p.channel p.page) l) : c.likesOf R p = (c l).likesAt p.slot := by
  rw [Cells.likesOf, contentAddress_eq_some.mpr hk, Option.bind_some,
    likesAddress_eq_some.mpr hl]
  rfl

/-- A place without its addresses has no likes. -/
theorem likesOf_eq_zero (h : ¬ ((∃ k, R.HasAddress (.content p.channel p.page p.slot) k) ∧
    ∃ l, R.HasAddress (.likes p.channel p.page) l)) : c.likesOf R p = 0 := by
  rw [Cells.likesOf]
  cases hl : (contentAddress R p).bind fun _ => likesAddress R p with
  | none => rfl
  | some l =>
    obtain ⟨k, hk, hl⟩ := Option.bind_eq_some_iff.mp hl
    exact absurd ⟨⟨k, contentAddress_eq_some.mp hk⟩, l, likesAddress_eq_some.mp hl⟩ h

theorem likes_read (hp : p.channel ∈ K) : (board R K c).likes p = c.likesOf R p := if_pos hp

/-- **The counter of one place moves**, when it does at its address and no other does. -/
theorem likes_of_step {q : Place Pubkey} {f : Nat → Nat} (hq : q.channel ∈ K)
    (hqk : ∃ k, R.HasAddress (.content q.channel q.page q.slot) k)
    (hql : ∃ l, R.HasAddress (.likes q.channel q.page) l)
    (h : ∀ p k l, p.channel ∈ K → R.HasAddress (.content p.channel p.page p.slot) k →
      R.HasAddress (.likes p.channel p.page) l →
        (p = q → (c' l).likesAt p.slot = f ((c l).likesAt p.slot)) ∧
        (p ≠ q → (c' l).likesAt p.slot = (c l).likesAt p.slot)) :
    (board R K c').likes = update (board R K c).likes q (f ((board R K c).likes q)) := by
  funext p
  by_cases hp : p = q
  · subst hp
    obtain ⟨k, hk⟩ := hqk
    obtain ⟨l, hl⟩ := hql
    rw [update_self, likes_read hq, likes_read hq, likesOf_eq hk hl, likesOf_eq hk hl]
    exact (h p k l hq hk hl).1 rfl
  · rw [update_of_ne hp]
    by_cases hK : p.channel ∈ K
    · rw [likes_read hK, likes_read hK]
      by_cases haddr : (∃ k, R.HasAddress (.content p.channel p.page p.slot) k) ∧
          ∃ l, R.HasAddress (.likes p.channel p.page) l
      · obtain ⟨⟨k, hk⟩, l, hl⟩ := haddr
        rw [likesOf_eq hk hl, likesOf_eq hk hl]
        exact (h p k l hK hk hl).2 hp
      · rw [likesOf_eq_zero haddr, likesOf_eq_zero haddr]
    · exact (if_neg hK).trans (if_neg hK).symm

section Likes

variable (hK : R.CollisionFree K) (hlive : ∀ t, (σ.cell R).Live t → t ∈ K)

include hK hlive

theorem LikeContent.Ok.applies {d : LikeContent} (h : d.Ok R sv accounts σ σ') :
    board R K (σ'.cell R) = (board R K (σ.cell R)).apply limits
      (.like ⟨d.thread, d.allocSeq, d.slot⟩ d.payer) := by
  refine Board.ext (platform_same (h.sameKind nofun)) (channels_same (h.sameKind nofun))
    (gates_same (h.sameKind nofun)) (roles_same (h.sameKind nofun))
    (messages_same (h.sameKind nofun)) ?_ (follows_same (h.sameKind nofun))
  have hthread : (keysOf accounts)[3]? = some d.thread := getElem?_of_take h.keys (by omega)
  have hdK : d.thread ∈ K := hlive _ ⟨_, h.thread_holds.cell h.thread_tag⟩
  refine likes_of_step (f := fun n => min (n + 1) (2 ^ 32 - 1)) hdK ⟨_, h.content_addr⟩
    ⟨_, h.likes_addr⟩ fun p k l hp _ hl => ?_
  have hread : (σ'.cell R l).likesAt p.slot = if (Event.call sv accounts (.likeContent d.allocSeq
      d.slot d.treasuryIdx d.authorIdx 0)).likes p.channel p.page p.slot then
        min ((σ.cell R l).likesAt p.slot + 1) (2 ^ 32 - 1) else (σ.cell R l).likesAt p.slot :=
    h.likesAt hK hlive hp hl
  rw [hread]
  simp only [Event.likes, hthread, Option.some.injEq, decide_eq_true_eq]
  refine ⟨fun he => ?_, fun hne => if_neg fun hsame => hne ?_⟩
  · subst he
    exact if_pos ⟨rfl, rfl, rfl⟩
  · obtain ⟨ht, hs, hi⟩ := hsame
    obtain ⟨channel, page, slot⟩ := p
    obtain rfl : d.thread = channel := ht
    obtain rfl : d.allocSeq = page := hs
    obtain rfl : d.slot = slot := hi
    rfl

theorem CloseContent.Ok.applies {d : CloseContent} (hw : WellFormed R (σ.cell R))
    (h : d.Ok R accounts σ σ') :
    board R K (σ'.cell R) = (board R K (σ.cell R)).apply limits
      (.delete (placeOf d.old) ((keysOf accounts)[2]?).isSome) := by
  have hold := h.holds.cell h.tag
  have hdK : d.old.header.thread ∈ K := hlive _ (hw.placed _ _ hold).2
  have hcontent : (keysOf accounts)[1]? = some d.content := getElem?_of_take h.keys (by omega)
  refine Board.ext (platform_same (h.sameKind nofun nofun))
    (channels_same (h.sameKind nofun nofun)) (gates_same (h.sameKind nofun nofun))
    (roles_same (h.sameKind nofun nofun)) ?_ ?_ (follows_same (h.sameKind nofun nofun))
  · have hcleared : SameKind .content (σ.cell R) (d.clearedCells (σ.cell R)) ∧
        d.clearedCells (σ.cell R) d.content = .holds (.content d.old) := by
      unfold CloseContent.clearedCells
      cases hr : d.reset with
      | none => exact ⟨.refl _ _, hold⟩
      | some r =>
        have hok := h.reset r hr
        have hl := hok.holds.cell hok.tag
        exact ⟨.rewrite (b := .likes r.old) hl nofun nofun, (update_of_ne hok.ne _ _).trans hold⟩
    rw [h.cells, messages_update (p := placeOf d.old) h.addr (fun q hq => ?_) (fun q _ => rfl),
      messages_same hcleared.1]
    · rfl
    · rw [hcleared.2]
      exact messageAt_of_ne hq
  · have hplace : ∀ (p : Place Pubkey) k, p.channel ∈ K →
        R.HasAddress (.content p.channel p.page p.slot) k → d.content = k → p = placeOf d.old := by
      intro p k hp hk he
      subst he
      have hsame := address_inj hK (by simpa [Pda.keys] using hp) (by simpa [Pda.keys] using hdK)
        hk h.addr
      obtain ⟨channel, page, slot⟩ := p
      cases hsame
      rfl
    -- what the close does to the counter of each place
    have hstep : ∀ (p : Place Pubkey) k l, p.channel ∈ K →
        R.HasAddress (.content p.channel p.page p.slot) k →
        R.HasAddress (.likes p.channel p.page) l → (σ'.cell R l).likesAt p.slot =
          if d.content = k ∧ ((keysOf accounts)[2]?).isSome = true then 0
          else (σ.cell R l).likesAt p.slot := by
      intro p k l hp hk hl
      have hlikes : (σ'.cell R l).likesAt p.slot =
          if (Event.call ⟨fun _ => 0, 0⟩ accounts .closeAccount).resets k then 0
          else (σ.cell R l).likesAt p.slot := h.likesAt hK hlive hp hl hw hk
      simpa only [Event.resets, hcontent, Option.some.injEq, Bool.and_eq_true,
        decide_eq_true_eq] using hlikes
    show _ = if ((keysOf accounts)[2]?).isSome = true then
      update (board R K (σ.cell R)).likes (placeOf d.old) 0 else (board R K (σ.cell R)).likes
    by_cases hgiven : ((keysOf accounts)[2]?).isSome = true
    · obtain ⟨third, hthird⟩ := Option.isSome_iff_exists.mp hgiven
      rw [if_pos hgiven]
      refine likes_of_step (f := fun _ => 0) hdK ⟨_, h.addr⟩ ⟨_, (h.third third hthird).1⟩
        fun p k l hp hk hl => ?_
      rw [hstep p k l hp hk hl]
      refine ⟨fun he => ?_, fun hne => if_neg fun hc => hne (hplace p k hp hk hc.1)⟩
      subst he
      exact if_pos ⟨h.addr.unique hk, hgiven⟩
    · rw [if_neg hgiven]
      funext p
      by_cases hp : p.channel ∈ K
      · rw [likes_read hp, likes_read hp]
        by_cases haddr : (∃ k, R.HasAddress (.content p.channel p.page p.slot) k) ∧
            ∃ l, R.HasAddress (.likes p.channel p.page) l
        · obtain ⟨⟨k, hk⟩, l, hl⟩ := haddr
          rw [likesOf_eq hk hl, likesOf_eq hk hl, hstep p k l hp hk hl,
            if_neg fun hc => hgiven hc.2]
        · rw [likesOf_eq_zero haddr, likesOf_eq_zero haddr]
      · exact (if_neg hp).trans (if_neg hp).symm

end Likes

end Acts

end Txtcel
