import Txtcel.Forum.Invariants
import Txtcel.Forum.Refinement
import Txtcel.Lib.Origins

/-!
# Where what is on the board came from

What holds of every board holds of the boards that the program shows, and each thing on them goes
back to an instruction of the run and to those who signed it:

* `board_sound`: nothing is on the board without what it belongs to, and everything is in its bounds;
* `role_origin`: a role was given by the author of the channel, or bought by its holder, and has not
  been touched since;
* `message_origin`: a message was posted by its author, whom the channel admitted, and its text is
  what was posted and the chunks its author appended in time, in their order.

All three are over keys whose addresses do not collide, in runs in which the counters of members
have room (`Roomy`).
-/

namespace Txtcel

open Lib Function Forum

variable {R : Runtime} {K : Set Pubkey} {σ σ₀ : Ledger} {t w : Pubkey} {r : Role}
  {p : Place Pubkey} {tr : List (Ledger × Event × Ledger)}

/-! ## 1. Sound boards -/

/-- **Main statement**: from a fresh ledger the program only ever shows sound boards, over keys
    whose addresses do not collide and while the counters have room. -/
theorem board_sound (hK : R.CollisionFree K) (h : (program R).Reach (Roomy R K) σ) :
    (board R K (σ.cell R)).Sound limits :=
  machine_sound (by decide) (by decide) ((board_simulates hK).reach h)

/-- The local channel in use is a sound board. -/
theorem board_sound_local : (board localnet {k | Plain k}
    ((afterCalls localnet Local.inUse Local.genesis).cell localnet)).Sound limits := by
  obtain ⟨tr, hp, -⟩ := Local.inUse_roomy
  exact board_sound localnet_collisionFree (hp.reach (.init Local.genesis_init))

/-! ## 2. Roles -/

/-- **Main statement**: in a `Roomy` run without collisions, who has a role in a channel was given
    it by the author of the channel, or became a member by a request of their own; since that step
    the role has been there. -/
theorem role_origin (hK : R.CollisionFree K) (h0 : Fresh R σ₀)
    (hp : (program R).Path (Roomy R K) σ₀ tr σ)
    (hr : (board R K (σ.cell R)).roles t w = some r) :
    ∃ past x since a, tr = past ++ x :: since ∧ Commands R x.2.1 a ∧
      (∀ y ∈ since, (board R K (y.1.cell R)).roles t w = some r ∧
        (board R K (y.2.2.cell R)).roles t w = some r) ∧
      ((a.command = .assign t w r ∧
          ∃ c, (board R K (σ.cell R)).channels t = some c ∧ c.author ∈ a.signed) ∨
        (a.command = .join t w ∧ r = .member ∧ w ∈ a.signed ∧
          ∃ g, (board R K (x.1.cell R)).gates t = some g ∧ 0 < g.entryFee)) := by
  have hreach : (program R).Reach (Roomy R K) σ₀ := .init h0
  have hnone : (board R K (σ₀.cell R)).roles t w ≠ some r := by
    rw [board_fresh h0]
    exact nofun
  obtain ⟨past, x, since, a, rfl, hcmd, ⟨ha, happly⟩, hb⟩ := (board_simulates hK).began
    (P := fun b => b.roles t w = some r) hreach hp hnone hr
  refine ⟨past, x, since, a, rfl, hcmd, hb.kept, ?_⟩
  have hafter := hb.after
  rw [happly] at hafter
  rcases role_after hafter with hold | hassign | ⟨hjoin, rfl⟩
  · exact absurd hold hb.before
  · rw [hassign] at ha
    obtain ⟨-, c, hc, hsigned⟩ := ha
    -- the channel has the same author in the end
    obtain ⟨tr', -, hpath⟩ := (board_simulates hK).path (hb.reached.reach hreach)
      (Lts.Path.snoc .nil hb.step hb.ok)
    obtain ⟨c₁, hc₁, hau₁, -⟩ := (path_grows hpath).channels t c hc
    obtain ⟨tr'', -, hpath'⟩ := (board_simulates hK).path
      (.step (hb.reached.reach hreach) hb.step hb.ok) hb.rest
    obtain ⟨c₂, hc₂, hau₂, -⟩ := (path_grows hpath').channels t c₁ hc₁
    exact .inl ⟨hassign, c₂, hc₂, hau₂.trans hau₁ ▸ hsigned⟩
  · rw [hjoin] at ha
    exact .inr ⟨hjoin, rfl, ha.2.1, ha.1⟩

/-- The membership of `bob` goes back to a call of the local history. -/
theorem role_origin_bob : ∃ (tr past : List (Ledger × Event × Ledger)) (x : Ledger × Event × Ledger)
    (since : List (Ledger × Event × Ledger)) (a : Action Pubkey), tr.map (·.2.1) = Local.inUse.map Call.event ∧
    tr = past ++ x :: since ∧ Commands localnet x.2.1 a ∧
      (a.command = .assign Local.channel Local.bob .member ∨
        a.command = .join Local.channel Local.bob) := by
  obtain ⟨tr, hp, htr⟩ := Local.inUse_roomy
  obtain ⟨past, x, since, a, he, hcmd, -, hby⟩ := role_origin (t := Local.channel) (w := Local.bob)
    (r := .member) localnet_collisionFree Local.genesis_init hp
    (role_eq_some.mpr (by decide +kernel))
  exact ⟨tr, past, x, since, a, htr, he, hcmd, hby.imp And.left And.left⟩

/-! ## 3. Messages -/

/-- **Main statement**: in a `Roomy` run without collisions, a message on the board was posted by
    its author, when the board allowed it, and has been there since. Of the commands seen since
    (`cmds`), those that appended to it were signed by its author in time, and its text is the text
    posted and their chunks. -/
theorem message_origin (hK : R.CollisionFree K) (h0 : Fresh R σ₀)
    (hp : (program R).Path (Roomy R K) σ₀ tr σ) {m : Message Pubkey}
    (hm : (board R K (σ.cell R)).messages p = some m) :
    ∃ past x since m₀ signed cmds, tr = past ++ x :: since ∧
      Commands R x.2.1 ⟨signed, .post p m₀⟩ ∧
      Command.Allowed limits (board R K (x.1.cell R)) signed (.post p m₀) ∧
      (∀ y ∈ since, ((board R K (y.2.2.cell R)).messages p).isSome) ∧
      Lts.Seen (fun σ => board R K (σ.cell R)) (Commands R) Unseen since cmds ∧
      m = { m₀ with body := m₀.body ++ (cmds.filterMap (appendedAt p)).flatten } ∧
      ∀ y ∈ cmds, ∀ chunk now, y.2.1.command = .append p chunk now →
        m.author ∈ y.2.1.signed ∧ now ≤ m.postedAt + limits.window := by
  have hreach : (program R).Reach (Roomy R K) σ₀ := .init h0
  have hnone : ¬ ((board R K (σ₀.cell R)).messages p).isSome := by
    rw [board_fresh h0]
    exact nofun
  obtain ⟨past, x, since, ⟨signed, cmd⟩, rfl, hcmd, ⟨ha, happly⟩, hb⟩ := (board_simulates hK).began
    (P := fun b => (b.messages p).isSome) hreach hp hnone (by rw [hm]; rfl)
  obtain ⟨m₀, hm₀⟩ := Option.isSome_iff_exists.mp hb.after
  have hpost : cmd = .post p m₀ := by
    have hafter := hm₀
    rw [happly] at hafter
    rcases message_after hafter with hold | hpost | ⟨m₁, chunk, now, -, hold, -⟩
    · exact absurd (by rw [hold]; rfl) hb.before
    · exact hpost
    · exact absurd (by rw [hold]; rfl) hb.before
  subst hpost
  obtain ⟨cmds, hseen, hpath⟩ := (board_simulates hK).path
    (.step (hb.reached.reach hreach) hb.step hb.ok) hb.rest
  have hkept : ∀ y ∈ cmds, (y.2.2.messages p).isSome := by
    intro y hy
    obtain ⟨z, hz, has⟩ := hseen.of_mem_right hy
    rw [has.target]
    exact (hb.kept z hz).2
  obtain ⟨htext, hsigned⟩ := message_along hpath hm₀ hkept
  obtain rfl := Option.some.inj (hm.symm.trans htext)
  exact ⟨past, x, since, m₀, signed, cmds, rfl, hcmd, ha, fun y hy => (hb.kept y hy).2, hseen, rfl,
    hsigned⟩

/-- The message in the first slot of the local channel goes back to a post of the run. -/
theorem message_origin_local : ∃ (tr past : List (Ledger × Event × Ledger))
    (x : Ledger × Event × Ledger) (since : List (Ledger × Event × Ledger)) (m₀ : Message Pubkey)
    (signed : Set Pubkey), tr.map (·.2.1) = Local.inUse.map Call.event ∧ tr = past ++ x :: since ∧
      Commands localnet x.2.1 ⟨signed, .post ⟨Local.channel, 0, 0⟩ m₀⟩ ∧ m₀.author ∈ signed := by
  obtain ⟨tr, hp, htr⟩ := Local.inUse_roomy
  have haddr := Local.hasAddress_addressOf (.content Local.channel 0 0)
  obtain ⟨m, hm⟩ := Option.isSome_iff_exists.mp (show (Cell.messageAt ⟨Local.channel, 0, 0⟩
    ((afterCalls localnet Local.inUse Local.genesis).cell localnet
      (Local.addressOf (.content Local.channel 0 0)))).isSome by decide +kernel)
  rw [← messages_of_address (K := {k | Plain k}) (p := ⟨Local.channel, 0, 0⟩) haddr] at hm
  obtain ⟨past, x, since, m₀, signed, cmds, he, hcmd, ha, -⟩ := message_origin
    localnet_collisionFree Local.genesis_init hp hm
  exact ⟨tr, past, x, since, m₀, signed, htr, he, hcmd, ha.2.2.1⟩

end Txtcel
