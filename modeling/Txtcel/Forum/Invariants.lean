import Txtcel.Forum.Board

/-!
# What holds of every board

For any type of keys and any bounds, about `machine` alone:

* `*_after`: what a command can have put on the board, component by component;
* `Board.Sound`: nothing is on a board without what it belongs to, and everything is in its bounds
  (`machine_sound`);
* `Board.Grows`: channels, with their authors, and gates are there for good;
* `message_along`: along a run that keeps a message its text grows by the chunks appended to it,
  each by its author and in time.
-/

namespace Txtcel

namespace Forum

open Lib Function

variable {Key : Type} {L : Limits} {b b' : Board Key} {cmd : Command Key}
  {signed : Set Key} {t w : Key} {p : Place Key}

/-! ## 1. What a command can have put on the board -/

section After

variable [DecidableEq Key]

theorem platform_after {x : Platform Key} (ha : cmd.Allowed L b signed)
    (h : (b.apply L cmd).platform = some x) :
    b.platform = some x ∨ (∃ a u, cmd = .launch a u ∧ x = .initial a u) ∨
      ∃ e y, cmd = .configure e ∧ e.rate ≤ L.rate ∧ b.platform = some y ∧ x = e.apply y := by
  cases cmd with
  | launch a u => exact .inr (.inl ⟨a, u, rfl, (Option.some.inj h).symm⟩)
  | configure e =>
    obtain ⟨y, hy, -, hrate⟩ := ha
    simp only [Board.apply, hy, Option.map_some] at h
    exact .inr (.inr ⟨e, y, rfl, hrate, hy, (Option.some.inj h).symm⟩)
  | _ => exact .inl h

/-- A channel is new, or it was there with the same author and title. -/
theorem channel_after {c : Channel Key} (ha : cmd.Allowed L b signed)
    (h : (b.apply L cmd).channels t = some c) :
    (∃ c₀, b.channels t = some c₀ ∧ c.author = c₀.author ∧ c.title = c₀.title ∧
        (c.pages = c₀.pages ∨ c.pages = c₀.pages + 1 ∧ c₀.pages < L.pages)) ∨
      ∃ fee, cmd = .openChannel t c.author c.title fee ∧ c.pages = 1 ∧ b.channels t = none := by
  cases cmd with
  | openChannel u author title fee =>
    by_cases hu : t = u
    · subst hu
      simp only [Board.apply, update_self] at h
      obtain rfl := Option.some.inj h
      exact .inr ⟨fee, rfl, rfl, ha.2.1⟩
    · simp only [Board.apply, update_of_ne hu] at h
      exact .inl ⟨c, h, rfl, rfl, .inl rfl⟩
  | addPage u pages =>
    by_cases hu : t = u
    · subst hu
      obtain ⟨⟨c₀, hc₀, rfl⟩, hlt⟩ := ha
      simp only [Board.apply, update_self, hc₀, Option.map_some] at h
      obtain rfl := Option.some.inj h
      exact .inl ⟨c₀, hc₀, rfl, rfl, .inr ⟨rfl, hlt⟩⟩
    · simp only [Board.apply, update_of_ne hu] at h
      exact .inl ⟨c, h, rfl, rfl, .inl rfl⟩
  | setPrice u e =>
    by_cases hu : t = u
    · subst hu
      obtain ⟨c₀, hc₀, -⟩ := ha
      simp only [Board.apply, update_self, hc₀, Option.map_some] at h
      obtain rfl := Option.some.inj h
      cases e <;> exact .inl ⟨c₀, hc₀, rfl, rfl, .inl rfl⟩
    · simp only [Board.apply, update_of_ne hu] at h
      exact .inl ⟨c, h, rfl, rfl, .inl rfl⟩
  | _ => exact .inl ⟨c, h, rfl, rfl, .inl rfl⟩

theorem gate_after {g : Gate} (h : (b.apply L cmd).gates t = some g) :
    (∃ g₀, b.gates t = some g₀) ∨ ∃ enabled, cmd = .installGate t enabled := by
  cases cmd with
  | installGate u enabled =>
    by_cases hu : t = u
    · subst hu
      exact .inr ⟨enabled, rfl⟩
    · simp only [Board.apply, update_of_ne hu] at h
      exact .inl ⟨g, h⟩
  | setGate u e =>
    by_cases hu : t = u
    · subst hu
      simp only [Board.apply, update_self, Option.map_eq_some_iff] at h
      obtain ⟨g₀, hg₀, -⟩ := h
      exact .inl ⟨g₀, hg₀⟩
    · simp only [Board.apply, update_of_ne hu] at h
      exact .inl ⟨g, h⟩
  | _ => exact .inl ⟨g, h⟩

/-- The role of one key in one channel is written. -/
theorem roles_update {u v : Key} {x : Option Role} {r : Role}
    (h : update b.roles u (update (b.roles u) v x) t w = some r) :
    b.roles t w = some r ∨ t = u ∧ w = v ∧ x = some r := by
  by_cases hu : t = u
  · subst hu
    rw [update_self] at h
    by_cases hv : w = v
    · subst hv
      rw [update_self] at h
      exact .inr ⟨rfl, rfl, h⟩
    · rw [update_of_ne hv] at h
      exact .inl h
  · rw [update_of_ne hu] at h
    exact .inl h

/-- **A role is assigned, or its holder joined.** -/
theorem role_after {r : Role} (h : (b.apply L cmd).roles t w = some r) :
    b.roles t w = some r ∨ cmd = .assign t w r ∨ cmd = .join t w ∧ r = .member := by
  cases cmd with
  | assign u v x =>
    refine (roles_update h).imp_right fun ⟨ht, hw, hx⟩ => .inl ?_
    rw [ht, hw, Option.some.inj hx]
  | dismiss u v x =>
    exact (roles_update h).imp_right fun ⟨_, _, hx⟩ => nomatch hx
  | join u v =>
    refine (roles_update h).imp_right fun ⟨ht, hw, hx⟩ => .inr ⟨?_, (Option.some.inj hx).symm⟩
    rw [ht, hw]
  | _ => exact .inl h

/-- **A message is posted, or appended to.** -/
theorem message_after {m : Message Key} (h : (b.apply L cmd).messages p = some m) :
    b.messages p = some m ∨ cmd = .post p m ∨ ∃ m₀ chunk now, cmd = .append p chunk now ∧
      b.messages p = some m₀ ∧ m = { m₀ with body := m₀.body ++ chunk } := by
  cases cmd with
  | post q x =>
    by_cases hq : p = q
    · subst hq
      simp only [Board.apply, update_self] at h
      obtain rfl := Option.some.inj h
      exact .inr (.inl rfl)
    · simp only [Board.apply, update_of_ne hq] at h
      exact .inl h
  | append q chunk now =>
    by_cases hq : p = q
    · subst hq
      simp only [Board.apply, update_self, Option.map_eq_some_iff] at h
      obtain ⟨m₀, hm₀, rfl⟩ := h
      exact .inr (.inr ⟨m₀, chunk, now, rfl, hm₀, rfl⟩)
    · simp only [Board.apply, update_of_ne hq] at h
      exact .inl h
  | delete q clear =>
    by_cases hq : p = q
    · subst hq
      simp only [Board.apply, update_self] at h
      cases h
    · simp only [Board.apply, update_of_ne hq] at h
      exact .inl h
  | _ => exact .inl h

/-- The channels that a key follows are the ones before, one more, or one less. -/
theorem follows_after : (b.apply L cmd).follows w ⊆ b.follows w ∨
    ∃ u, cmd = .follow w u ∧ (b.apply L cmd).follows w = insert u (b.follows w) := by
  cases cmd with
  | follow v u =>
    by_cases hv : w = v
    · subst hv
      exact .inr ⟨u, rfl, update_self _ _ _⟩
    · exact .inl (update_of_ne hv _ _).subset
  | unfollow v u =>
    by_cases hv : w = v
    · subst hv
      exact .inl ((update_self _ _ _).subset.trans (Finset.erase_subset _ _))
    · exact .inl (update_of_ne hv _ _).subset
  | _ => exact .inl subset_rfl

end After

/-! ## 2. What is there for good -/

/-- **Channels stay, with their authors, and so do the platform and the gates.** -/
structure Board.Grows (b b' : Board Key) : Prop where
  platform : b.platform.isSome → b'.platform.isSome
  channels : ∀ t c, b.channels t = some c →
    ∃ c', b'.channels t = some c' ∧ c'.author = c.author ∧ c.pages ≤ c'.pages
  gates : ∀ t g, b.gates t = some g → ∃ g', b'.gates t = some g'

theorem Board.Grows.refl (b : Board Key) : b.Grows b :=
  ⟨id, fun _ c h => ⟨c, h, rfl, le_rfl⟩, fun _ g h => ⟨g, h⟩⟩

theorem Board.Grows.trans {b'' : Board Key} (h : b.Grows b') (h' : b'.Grows b'') : b.Grows b'' where
  platform hp := h'.platform (h.platform hp)
  channels t c hc := by
    obtain ⟨c₁, hc₁, ha₁, hp₁⟩ := h.channels t c hc
    obtain ⟨c₂, hc₂, ha₂, hp₂⟩ := h'.channels t c₁ hc₁
    exact ⟨c₂, hc₂, ha₂.trans ha₁, hp₁.trans hp₂⟩
  gates t g hg := by
    obtain ⟨g₁, hg₁⟩ := h.gates t g hg
    exact h'.gates t g₁ hg₁

section Grows

variable [DecidableEq Key]

/-- A table with one entry rewritten still has the others. -/
theorem exists_update {V : Type} {f : Key → Option V} {u : Key} {x : Option V} {v : V}
    {Q : V → V → Prop} (hrefl : ∀ v, Q v v) (hx : ∀ v, f u = some v → ∃ v', x = some v' ∧ Q v v')
    (h : f t = some v) : ∃ v', update f u x t = some v' ∧ Q v v' := by
  by_cases hu : t = u
  · subst hu
    rw [update_self]
    exact hx v h
  · rw [update_of_ne hu]
    exact ⟨v, h, hrefl v⟩

theorem Board.apply_grows (ha : cmd.Allowed L b signed) : b.Grows (b.apply L cmd) := by
  have hchannels : ∀ t c, b.channels t = some c → ∃ c', (b.apply L cmd).channels t = some c' ∧
      c'.author = c.author ∧ c.pages ≤ c'.pages := by
    intro t c hc
    have hrefl (c : Channel Key) : c.author = c.author ∧ c.pages ≤ c.pages := ⟨rfl, le_rfl⟩
    cases cmd with
    | openChannel u author title fee =>
      refine exists_update (Q := fun c c' => c'.author = c.author ∧ c.pages ≤ c'.pages) hrefl
        (fun v hv => ?_) hc
      rw [ha.2.1] at hv
      cases hv
    | addPage u pages =>
      obtain ⟨⟨c₀, hc₀, rfl⟩, -⟩ := ha
      refine exists_update (Q := fun c c' => c'.author = c.author ∧ c.pages ≤ c'.pages) hrefl
        (fun v hv => ?_) hc
      obtain rfl := Option.some.inj (hc₀.symm.trans hv)
      rw [hc₀]
      exact ⟨_, rfl, rfl, Nat.le_succ _⟩
    | setPrice u e =>
      refine exists_update (Q := fun c c' => c'.author = c.author ∧ c.pages ≤ c'.pages) hrefl
        (fun v hv => ?_) hc
      rw [hv]
      cases e <;> exact ⟨_, rfl, rfl, le_rfl⟩
    | _ => exact ⟨c, hc, rfl, le_rfl⟩
  have hgates : ∀ t g, b.gates t = some g → ∃ g', (b.apply L cmd).gates t = some g' := by
    intro t g hg
    have htrue : ∀ v : Gate, True := fun _ => trivial
    cases cmd with
    | installGate u enabled =>
      obtain ⟨g', hg', -⟩ := exists_update (Q := fun _ _ => True) htrue
        (fun v _ => ⟨{ enabled, entryFee := 0 }, rfl, trivial⟩) hg
      exact ⟨g', hg'⟩
    | setGate u e =>
      obtain ⟨g', hg', -⟩ := exists_update (Q := fun _ _ => True) htrue
        (x := (b.gates u).map e.apply) (u := u) (fun v hv => ⟨e.apply v, by rw [hv]; rfl, trivial⟩) hg
      exact ⟨g', hg'⟩
    | _ => exact ⟨g, hg⟩
  refine ⟨fun hp => ?_, hchannels, hgates⟩
  cases cmd with
  | launch a u => rfl
  | configure e =>
    rw [Board.apply, Option.isSome_map]
    exact hp
  | _ => exact hp

/-- **Along every run.** -/
theorem path_grows {tr : List (Board Key × Action Key × Board Key)}
    (h : (machine Key L).Path anyAction b tr b') : b.Grows b' :=
  h.rel .refl (fun _ _ _ => .trans) fun x hx => by
    obtain ⟨⟨ha, he⟩, -⟩ := h.mem hx
    rw [he]
    exact Board.apply_grows ha

end Grows

/-! ## 3. Sound boards -/

/-- **Nothing is on the board without what it belongs to, and everything is in its bounds.** -/
structure Board.Sound (L : Limits) (b : Board Key) : Prop where
  rates : ∀ x, b.platform = some x →
    x.baseFee ≤ L.rate ∧ x.authorFeeCut ≤ L.rate ∧ x.entryCut ≤ L.rate ∧ x.likeCut ≤ L.rate
  channels : ∀ t c, b.channels t = some c →
    b.platform.isSome ∧ c.title.length ≤ L.title ∧ 0 < c.pages ∧ c.pages ≤ L.pages
  gates : ∀ t g, b.gates t = some g → ∃ c, b.channels t = some c
  roles : ∀ t w r, b.roles t w = some r → ∃ g, b.gates t = some g
  messages : ∀ p m, b.messages p = some m → b.Has L p ∧ m.body.length ≤ L.body
  likes : ∀ p, b.likes p ≤ L.likes
  follows : ∀ w, (b.follows w).card ≤ L.follows ∧ ∀ t ∈ b.follows w, ∃ c, b.channels t = some c

/-- The empty board is sound. -/
theorem Board.empty_sound : (Board.empty : Board Key).Sound L where
  rates := nofun
  channels := nofun
  gates := nofun
  roles := nofun
  messages := nofun
  likes _ := Nat.zero_le _
  follows _ := ⟨Nat.zero_le _, nofun⟩

theorem Board.Has.grows (h : b.Has L p) (hg : b.Grows b') : b'.Has L p := by
  obtain ⟨⟨c, hc, hlt⟩, hslot⟩ := h
  obtain ⟨c', hc', -, hle⟩ := hg.channels _ c hc
  exact ⟨⟨c', hc', hlt.trans_le hle⟩, hslot⟩

theorem PlatformEdit.apply_rates {x : Platform Key} {e : PlatformEdit Key} {n : Nat}
    (hx : x.baseFee ≤ n ∧ x.authorFeeCut ≤ n ∧ x.entryCut ≤ n ∧ x.likeCut ≤ n) (he : e.rate ≤ n) :
    (e.apply x).baseFee ≤ n ∧ (e.apply x).authorFeeCut ≤ n ∧ (e.apply x).entryCut ≤ n ∧
      (e.apply x).likeCut ≤ n := by
  obtain ⟨h1, h2, h3, h4⟩ := hx
  cases e with
  | admin k | treasury k => exact ⟨h1, h2, h3, h4⟩
  | baseFee bps => exact ⟨he, h2, h3, h4⟩
  | authorFeeCut bps => exact ⟨h1, he, h3, h4⟩
  | entryCut bps => exact ⟨h1, h2, he, h4⟩
  | likeCut bps => exact ⟨h1, h2, h3, he⟩

section Sound

variable [DecidableEq Key]

/-- The likes of a place are capped. -/
theorem likes_after (h : ∀ p, b.likes p ≤ L.likes) : (b.apply L cmd).likes p ≤ L.likes := by
  cases cmd with
  | delete q clear =>
    show (if clear then update b.likes q 0 else b.likes) p ≤ L.likes
    split
    · by_cases hq : p = q
      · subst hq
        rw [update_self]
        exact Nat.zero_le _
      · rw [update_of_ne hq]
        exact h p
    · exact h p
  | like q v =>
    show update b.likes q (min (b.likes q + 1) L.likes) p ≤ L.likes
    by_cases hq : p = q
    · subst hq
      rw [update_self]
      exact Nat.min_le_right _ _
    · rw [update_of_ne hq]
      exact h p
  | _ => exact h p

/-- **One command keeps a board sound**, when the rates it starts with are in bounds. -/
theorem Board.Sound.apply (hL : 1000 ≤ L.rate) (hpages : 0 < L.pages) (h : b.Sound L)
    (ha : cmd.Allowed L b signed) : (b.apply L cmd).Sound L := by
  have hg := Board.apply_grows ha
  refine ⟨fun x hx => ?_, fun t c hc => ?_, fun t g hgate => ?_, fun t w r hr => ?_,
    fun p m hm => ?_, fun p => likes_after h.likes, fun w => ?_⟩
  · rcases platform_after ha hx with hx | ⟨a, u, rfl, rfl⟩ | ⟨e, y, rfl, hrate, hy, rfl⟩
    · exact h.rates x hx
    · exact ⟨hL, hL, hL, hL⟩
    · exact PlatformEdit.apply_rates (h.rates y hy) hrate
  · rcases channel_after ha hc with ⟨c₀, hc₀, -, htitle, hp⟩ | ⟨fee, rfl, hp, -⟩
    · obtain ⟨hplat, ht, hpos, hle⟩ := h.channels t c₀ hc₀
      refine ⟨hg.platform hplat, htitle ▸ ht, ?_⟩
      omega
    · exact ⟨hg.platform ha.1, ha.2.2.2.2, by omega⟩
  · rcases gate_after hgate with ⟨g₀, hg₀⟩ | ⟨enabled, rfl⟩
    · obtain ⟨c, hc⟩ := h.gates t g₀ hg₀
      obtain ⟨c', hc', -⟩ := hg.channels t c hc
      exact ⟨c', hc'⟩
    · obtain ⟨c, hc, -⟩ := ha.2
      exact ⟨c, hc⟩
  · rcases role_after hr with hr | rfl | ⟨rfl, rfl⟩
    · obtain ⟨g, hgate⟩ := h.roles t w r hr
      exact hg.gates t g hgate
    · exact ha.1
    · obtain ⟨g, hgate, -⟩ := ha.1
      exact ⟨g, hgate⟩
  · rcases message_after hm with hm | rfl | ⟨m₀, chunk, now, rfl, hm₀, rfl⟩
    · obtain ⟨hhas, hlen⟩ := h.messages p m hm
      exact ⟨hhas.grows hg, hlen⟩
    · exact ⟨ha.1, ha.2.2.2.1⟩
    · obtain ⟨hhas, -⟩ := h.messages p m₀ hm₀
      obtain ⟨m₁, hm₁, -, hlen, -⟩ := ha
      obtain rfl := Option.some.inj (hm₀.symm.trans hm₁)
      exact ⟨hhas, hlen⟩
  · obtain ⟨hcard, hmem⟩ := h.follows w
    have hold : ∀ t ∈ b.follows w, ∃ c, (b.apply L cmd).channels t = some c := by
      intro t ht
      obtain ⟨c, hc⟩ := hmem t ht
      obtain ⟨c', hc', -⟩ := hg.channels t c hc
      exact ⟨c', hc'⟩
    have hafter : (b.apply L cmd).follows w ⊆ b.follows w ∨
        ∃ u, cmd = .follow w u ∧ (b.apply L cmd).follows w = insert u (b.follows w) := follows_after
    rcases hafter with hsub | ⟨u, rfl, he⟩
    · exact ⟨(Finset.card_le_card hsub).trans hcard, fun t ht => hold t (hsub ht)⟩
    · obtain ⟨⟨c, hc⟩, -, -, hlt⟩ := ha
      rw [he]
      refine ⟨(Finset.card_insert_le _ _).trans hlt, fun t ht => ?_⟩
      rcases Finset.mem_insert.mp ht with rfl | ht
      · exact ⟨c, hc⟩
      · exact hold t ht

/-- **Every reachable board is sound.** -/
theorem machine_sound (hL : 1000 ≤ L.rate) (hpages : 0 < L.pages)
    (h : (machine Key L).Reach anyAction b) : b.Sound L := by
  refine h.invariant (fun b hb => ?_) fun b a b' _ hs ⟨ha, he⟩ _ => ?_
  · rw [show b = .empty from hb]
    exact Board.empty_sound
  · rw [he]
    exact hs.apply hL hpages ha

end Sound

/-! ## 4. The text of a message -/

section Text

variable [DecidableEq Key]

/-- The chunk that a step appends to the message at the place. -/
def appendedAt (p : Place Key) (x : Board Key × Action Key × Board Key) : Option (List UInt8) :=
  match x.2.1.command with
  | .append q chunk _ => if p = q then some chunk else none
  | _ => none

/-- **What a command does to a message that it does not delete.** -/
theorem message_step {m : Message Key} (ha : cmd.Allowed L b signed) (hm : b.messages p = some m)
    (hkept : ((b.apply L cmd).messages p).isSome) :
    (b.apply L cmd).messages p = some { m with
      body := m.body ++ (appendedAt p (b, ⟨signed, cmd⟩, b.apply L cmd)).getD [] } ∧
    ∀ chunk now, cmd = .append p chunk now → m.author ∈ signed ∧ now ≤ m.postedAt + L.window := by
  have hsame {m' : Message Key} (h : some m' = b.messages p) :
      some m' = some { m with body := m.body ++ [] } := by
    rw [h, hm, List.append_nil]
  obtain ⟨m', hm'⟩ := Option.isSome_iff_exists.mp hkept
  cases cmd with
  | append q chunk now =>
    by_cases hq : p = q
    · subst hq
      obtain ⟨m₁, hm₁, hsig, -, hnow⟩ := ha
      obtain rfl := Option.some.inj (hm.symm.trans hm₁)
      refine ⟨?_, fun c n he => ?_⟩
      · simp only [Board.apply, update_self, hm, appendedAt]
        rfl
      · cases he
        exact ⟨hsig, hnow⟩
    · refine ⟨?_, fun c n he => ?_⟩
      · simp only [appendedAt, if_neg hq, Board.apply, update_of_ne hq, hm]
        exact hsame hm.symm
      · cases he
        exact absurd rfl hq
  | post q x =>
    refine ⟨?_, nofun⟩
    have hq : p ≠ q := by
      rintro rfl
      exact nomatch hm.symm.trans ha.2.1
    simp only [Board.apply, update_of_ne hq, hm]
    exact hsame hm.symm
  | delete q clear =>
    refine ⟨?_, nofun⟩
    have hq : p ≠ q := by
      rintro rfl
      simp only [Board.apply, update_self] at hm'
      cases hm'
    simp only [Board.apply, update_of_ne hq, hm]
    exact hsame hm.symm
  | _ => exact ⟨hm.trans (hsame hm.symm), nofun⟩

/-- **The text of a message along a run that keeps it**: the chunks appended to it come behind it,
    each signed by its author, in time. -/
theorem message_along {tr : List (Board Key × Action Key × Board Key)} {m : Message Key}
    (h : (machine Key L).Path anyAction b tr b') (hm : b.messages p = some m)
    (hkept : ∀ x ∈ tr, (x.2.2.messages p).isSome) :
    b'.messages p = some { m with body := m.body ++ (tr.filterMap (appendedAt p)).flatten } ∧
    ∀ x ∈ tr, ∀ chunk now, x.2.1.command = .append p chunk now →
      m.author ∈ x.2.1.signed ∧ now ≤ m.postedAt + L.window := by
  induction h with
  | nil => exact ⟨by rw [hm]; simp, nofun⟩
  | snoc hp hs hok ih =>
    rename_i tr b₁ b₂ a
    obtain ⟨hbody, hsigned⟩ := ih fun x hx => hkept x (List.mem_append_left _ hx)
    obtain ⟨ha, rfl⟩ := hs
    have hlast := hkept _ (List.mem_append_right _ (List.mem_singleton_self _))
    obtain ⟨hnew, hchunk⟩ := message_step ha hbody hlast
    refine ⟨?_, fun x hx => ?_⟩
    · rw [hnew, List.filterMap_append, List.flatten_append, List.append_assoc]
      cases hc : appendedAt p (b₁, a, b₁.apply L a.command) <;> simp [hc]
    · rcases List.mem_append.mp hx with hx | hx
      · exact hsigned x hx
      · obtain rfl := List.mem_singleton.mp hx
        exact hchunk

end Text

end Forum

end Txtcel
