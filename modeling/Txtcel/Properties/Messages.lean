import Txtcel.System.Addresses
import Txtcel.System.Deployment

/-!
# Messages are kept

From the post that stores a message to the close that its author signs:

* `MessageStep`: a step keeps the message, or its author appends to it in time, or closes it --
  nothing else happens to it, whoever races for its slot;
* `message_kept`: so along a run without a close the header and the kind stay, and the body grows
  at its end only;
* `reach_closed`, `closed_stays`: the close frees the address, and no loader accepts it until a post
  stores a message there again. What else could be created there is a matter of the hash.
-/

namespace Txtcel

open Lib Exec Borsh Function

variable {R : Runtime} {sv : Sysvars} {accounts : List AccountInfo} {σ σ' : Ledger}
  {ix : ProgramInstruction} {k : Pubkey} {m : ContentNode} {e : Event}

/-! ## 1. What happens to a message -/

/-- The author appends a chunk, while the window is open. -/
def Appends (k : Pubkey) (m m' : ContentNode) (e : Event) : Prop :=
  ∃ sv accounts chunk ti ai, e = .call sv accounts (.appendContent chunk ti ai) ∧
    (keysOf accounts)[1]? = some k ∧ m.header.author ∈ signers accounts ∧
      sv.unixTimestamp.toInt ≤ m.header.createdAt.toInt + 120 ∧
        m' = { m with body := m.body ++ chunk }

/-- The author closes it. -/
def Closes (k author : Pubkey) (e : Event) : Prop :=
  ∃ sv accounts, e = .call sv accounts .closeAccount ∧ (keysOf accounts)[1]? = some k ∧
    author ∈ signers accounts

/-- **What a step does to the message at `k`.** -/
inductive MessageStep (k : Pubkey) (m : ContentNode) (e : Event) : Cell → Prop where
  | keep : MessageStep k m e (.holds (.content m))
  | append (m' : ContentNode) (h : Appends k m m' e) : MessageStep k m e (.holds (.content m'))
  | close (h : Closes k m.header.author e) : MessageStep k m e .free

theorem Act.messageStep (h : Act R sv accounts σ σ' ix) (hm : σ.cell R k = .holds (.content m)) :
    MessageStep k m (.call sv accounts ix) (σ'.cell R k) := by
  rcases h.change k with he | hc
  · rw [he, hm]
    exact .keep
  · rw [hm] at hc
    generalize σ'.cell R k = y at hc ⊢
    cases hc with
    | appendContent d h hix =>
      have hwin : sv.unixTimestamp.toInt - d.old.header.createdAt.toInt ≤ 120 := h.in_window
      refine .append d.new ⟨sv, accounts, d.chunk, _, _, by rw [hix],
        getElem?_of_take (i := 1) h.keys (by omega), h.content_author ▸ h.signer, by omega, rfl⟩
    | closeContent d h hix =>
      exact .close ⟨sv, accounts, by rw [hix], getElem?_of_take (i := 1) h.keys (by omega),
        h.author ▸ h.signer⟩

theorem reach_messageStep (h : (program R).Reach anyStep σ) (hs : (program R).step σ e σ')
    (hm : σ.cell R k = .holds (.content m)) : MessageStep k m e (σ'.cell R k) := by
  cases e with
  | call sv accounts ix => exact (reach_act h hs).messageStep hm
  | outside =>
    rw [Outside.holds_iff hs |>.mpr hm]
    exact .keep

/-- **No message of a reachable store is longer than `MAX_BODY_LEN`.** -/
theorem reach_body_le (h : (program R).Reach anyStep σ) (hm : σ.cell R k = .holds (.content m)) :
    m.body.length ≤ maxBodyLen := by
  refine reach_induction (I := fun σ => ∀ k m, σ.cell R k = .holds (.content m) →
    m.body.length ≤ maxBodyLen) ?_ ?_ ?_ h k m hm
  · intro σ h0 k m hm
    exact absurd (owner_of_cell_holds hm) (h0.unowned k)
  · intro σ σ' sv accounts ix _ hI hact _ _ k m hm
    rcases hact.change k with he | hc
    · exact hI k m (he.symm.trans hm)
    · rw [hm] at hc
      generalize σ.cell R k = x at hc
      cases hc with
      | createContent d h _ _ => exact h.body_le
      | appendContent d h _ => exact h.body_le
  · intro σ σ' _ hI hout _ k m hm
    exact hI k m (hout.holds_iff.mp hm)

/-! ## 2. Along a run -/

/-- The later message is the earlier one with a longer body. -/
structure Extends (m m' : ContentNode) : Prop where
  header : m'.header = m.header
  kind : m'.kind = m.kind
  body : m.body <+: m'.body

theorem Extends.refl (m : ContentNode) : Extends m m := ⟨rfl, rfl, List.prefix_rfl⟩

theorem Extends.trans {m₁ m₂ m₃ : ContentNode} (h : Extends m₁ m₂) (h' : Extends m₂ m₃) :
    Extends m₁ m₃ :=
  ⟨h'.header.trans h.header, h'.kind.trans h.kind, h.body.trans h'.body⟩

theorem Appends.extends {m' : ContentNode} (h : Appends k m m' e) : Extends m m' := by
  obtain ⟨_, _, chunk, _, _, _, _, _, _, rfl⟩ := h
  exact ⟨rfl, rfl, List.prefix_append _ _⟩

/-- **A message is kept until its author closes it**, whatever the steps in between are. -/
theorem message_kept {tr : List (Ledger × Event × Ledger)} (h : (program R).Reach anyStep σ)
    (hm : σ.cell R k = .holds (.content m)) (hp : (program R).Path anyStep σ tr σ')
    (hopen : ∀ s ∈ tr, ¬ Closes k m.header.author s.2.1) :
    ∃ m', σ'.cell R k = .holds (.content m') ∧ Extends m m' := by
  induction hp with
  | nil => exact ⟨m, hm, .refl m⟩
  | snoc hp hs _ ih =>
    obtain ⟨m₁, hm₁, hext⟩ := ih fun s hs => hopen s (List.mem_append_left _ hs)
    have hlast := hopen _ (List.mem_append_right _ (List.mem_singleton_self _))
    have hstep := reach_messageStep (hp.reach h) hs hm₁
    rename_i υ _ _
    generalize hy : υ.cell R k = y at hstep
    cases hstep with
    | keep => exact ⟨m₁, rfl, hext⟩
    | append m' happ => exact ⟨m', rfl, hext.trans happ.extends⟩
    | close hc => exact absurd (hext.header ▸ hc) hlast

/-! ## 3. Posting -/

/-- **What a successful post stored**: a new message of its payer, at a free address of the page and
    slot of one of its candidates. -/
def Posted (R : Runtime) (sv : Sysvars) (accounts : List AccountInfo) (post : Post)
    (candidates : List CandidateSlot) (σ σ' : Ledger) : Prop :=
  ∃ k t w, ∃ c ∈ candidates, (keysOf accounts)[0]? = some w ∧ w ∈ signers accounts ∧
    (keysOf accounts)[1]? = some t ∧ R.HasAddress (.content t c.allocSeq c.slot) k ∧ σ.Free k ∧
      σ'.cell R k = .holds (.content
        { header :=
            { tag := tagContent, allocSeq := c.allocSeq, slot := c.slot, thread := t, author := w
              createdAt := sv.unixTimestamp, replyAllocSeq := post.replyAllocSeq
              replySlot := post.replySlot }
          kind := post.kind, body := post.body })

theorem FillSlot.Ok.posted {d : FillSlot} {candidates : List CandidateSlot}
    (h : d.Ok R sv accounts σ σ') (hc : d.candidate ∈ candidates) :
    Posted R sv accounts d.post candidates σ σ' := by
  refine ⟨d.content, d.thread, d.payer, d.candidate, hc,
    getElem?_of_take (i := 0) h.keys (by omega), h.signer,
    getElem?_of_take (i := 1) h.keys (by omega), h.content_addr, h.content_free, ?_⟩
  rw [h.cells, update_self]
  rfl

/-! ## 4. After the close -/

/-- A loader accepts the account. -/
inductive Accepts (R : Runtime) (σ : Ledger) (a : AccountInfo) : Prop where
  | content (x : ContentNode) (τ : Ledger) (h : loadContent R a σ = .ok (x, τ))
  | alloc (x : AllocNode) (τ : Ledger) (h : loadAlloc R a σ = .ok (x, τ))
  | thread (x : ThreadNode) (τ : Ledger) (h : loadThread R a σ = .ok (x, τ))
  | settings (x : ProgramSettings) (τ : Ledger) (h : loadSettings R a σ = .ok (x, τ))
  | access (x : ThreadAccess) (τ : Ledger) (h : loadThreadAccess a σ = .ok (x, τ))
  | entry (x : AccessEntry) (τ : Ledger) (h : loadAccessEntry a σ = .ok (x, τ))
  | likes (x : AllocLikes) (τ : Ledger) (h : loadAllocLikes a σ = .ok (x, τ))
  | registry (x : FollowRegistry) (τ : Ledger) (h : loadFollowRegistry a σ = .ok (x, τ))
  | follower (x : FollowerShard) (τ : Ledger) (h : loadFollowerShard a σ = .ok (x, τ))

/-- Nothing is read off no data. -/
theorem deserialize_nil {α : Type} [Borsh α] [Account α] {x : α} {rest : Bytes} :
    (deserialize [] : Option (α × Bytes)) ≠ some (x, rest) := by
  intro h
  have hd := (deserialize_eq_some.mp h).2
  have hne := (Account.wrap x).bytes_ne_nil
  rw [Account.bytes_wrap] at hne
  exact hne (List.append_eq_nil_iff.mp hd.symm).1

theorem tryFromSlice_nil {α : Type} [Borsh α] [Account α] {x : α} :
    tryFromSlice α [] ≠ some x := by
  intro h
  have hd := (tryFromSlice_eq_some.mp h).2
  have hne := (Account.wrap x).bytes_ne_nil
  rw [Account.bytes_wrap] at hne
  exact hne hd.symm

/-- **No loader accepts a free account.** -/
theorem Ledger.Free.rejected {a : AccountInfo} (h : σ.Free a.key) : ¬ Accepts R σ a := by
  have howner : σ.owner a.key ≠ R.programId := fun ho => R.programId_ne (ho.symm.trans h.1)
  intro hacc
  cases hacc with
  | content x τ hl => exact howner (loadContent_ok hl).1.owner
  | alloc x τ hl => exact howner (loadAlloc_ok hl).1.owner
  | thread x τ hl => exact howner (loadThread_ok hl).1.owner
  | settings x τ hl => exact howner (loadSettings_ok hl).1.owner
  | access x τ hl =>
    simp only [loadThreadAccess, bind_eq_ok, dataOf_eq_ok, orFail_eq_ok, and_assoc,
      existsAndEq, true_and, exists_and_left, Prod.exists] at hl
    obtain ⟨_, _, hd, -⟩ := hl
    exact deserialize_nil (h.2 ▸ hd)
  | entry x τ hl =>
    simp only [loadAccessEntry, bind_eq_ok, dataOf_eq_ok, orFail_eq_ok, and_assoc,
      existsAndEq, true_and, exists_and_left, Prod.exists] at hl
    obtain ⟨_, _, hd, -⟩ := hl
    exact deserialize_nil (h.2 ▸ hd)
  | likes x τ hl =>
    simp only [loadAllocLikes, bind_eq_ok, dataOf_eq_ok, orFail_eq_ok, and_assoc,
      existsAndEq, true_and, exists_and_left] at hl
    obtain ⟨_, hd, -⟩ := hl
    exact tryFromSlice_nil (h.2 ▸ hd)
  | registry x τ hl =>
    simp only [loadFollowRegistry, bind_eq_ok, dataOf_eq_ok, orFail_eq_ok, and_assoc,
      existsAndEq, true_and, exists_and_left] at hl
    obtain ⟨_, hd, -⟩ := hl
    exact tryFromSlice_nil (h.2 ▸ hd)
  | follower x τ hl =>
    simp only [loadFollowerShard, bind_eq_ok, dataOf_eq_ok, orFail_eq_ok, and_assoc,
      existsAndEq, true_and, exists_and_left] at hl
    obtain ⟨_, hd, -⟩ := hl
    exact tryFromSlice_nil (h.2 ▸ hd)

/-- **A close frees the address of the message**, which was not free. -/
theorem Act.closed (h : Act R sv accounts σ σ' .closeAccount) (hk : (keysOf accounts)[1]? = some k) :
    ¬ σ.Free k ∧ σ'.Free k := by
  cases h with
  | closeContent d h =>
    have hcontent : (keysOf accounts)[1]? = some d.content := getElem?_of_take h.keys (by omega)
    obtain rfl : d.content = k := Option.some.inj (hcontent.symm.trans hk)
    refine ⟨fun hf => R.programId_ne (h.holds.owner.symm.trans hf.1), ?_⟩
    rw [← cell_eq_free (R := R), h.cells, update_self]
  | settingsEdit d h hix => exact hix.elim
  | threadEdit d h hix => exact hix.elim
  | accessEdit d h hix => exact hix.elim
  | setEntry d h hix => cases hix
  | removeEntry d h hix => cases hix

theorem reach_closed {author : Pubkey} (h : (program R).Reach anyStep σ)
    (hs : (program R).step σ e σ') (hc : Closes k author e) : σ'.Free k := by
  obtain ⟨sv, accounts, rfl, hk, -⟩ := hc
  exact ((reach_act h hs).closed hk).2

/-- A post stores a message at `k`. -/
def PostsAt (R : Runtime) (k : Pubkey) (s : Ledger × Event × Ledger) : Prop :=
  ∃ sv accounts kind body candidates ti ai rs rp maxFee m,
    s.2.1 = .call sv accounts (.fillSlot kind body candidates ti ai rs rp maxFee) ∧
      s.1.Free k ∧ s.2.2.cell R k = .holds (.content m)

/-- A message appears through a post only. -/
theorem Act.postsAt (h : Act R sv accounts σ σ' ix) (hf : σ.Free k)
    (hm : σ'.cell R k = .holds (.content m)) : PostsAt R k (σ, .call sv accounts ix, σ') := by
  have hfree := cell_eq_free (R := R).mpr hf
  rcases h.change k with he | hc
  · exact nomatch hfree.symm.trans (he.symm.trans hm)
  · rw [hfree, hm] at hc
    generalize hn : m = n at hc
    generalize hk : k = j at hc
    cases hc with
    | createContent d h _ hix =>
      subst hn hk
      exact ⟨sv, accounts, _, _, _, _, _, _, _, _, _, by rw [hix], hf, hm⟩

/-- **A freed address stays free until a post stores a message there**, over a hash without
    collisions among the keys of the run. -/
theorem closed_stays {K : Set Pubkey} {t : Pubkey} {n : UInt32} {i : UInt8}
    {tr : List (Ledger × Event × Ledger)} (hK : R.CollisionFree K)
    (h : (program R).Reach (Within K) σ) (ha : R.HasAddress (.content t n i) k) (ht : t ∈ K)
    (hf : σ.Free k) (hp : (program R).Path (Within K) σ tr σ') (hno : ∀ s ∈ tr, ¬ PostsAt R k s) :
    σ'.Free k := by
  induction hp with
  | nil => exact hf
  | snoc hp hs hin ih =>
    have hf₁ := ih fun s hs => hno s (List.mem_append_left _ hs)
    have hlast := hno _ (List.mem_append_right _ (List.mem_singleton_self _))
    have hkeys : ∀ j ∈ (Pda.content t n i).keys, j ∈ K := by
      intro j hj
      rwa [List.mem_singleton.mp hj]
    rcases step_created hK (hp.reach h) hs hin ha hkeys hf₁ with hfree | hst
    · exact hfree
    · rename_i τ υ e
      generalize hy : υ.cell R k = y at hst
      cases hst with
      | content m =>
        cases e with
        | outside =>
          have hfree := cell_eq_free (R := R).mpr (hs.unclaimed k ha.isPda hf₁)
          exact nomatch hfree.symm.trans hy
        | call sv accounts ix => exact absurd ((reach_act (hp.reach h) hs).postsAt hf₁ hy) hlast

/-! ## 5. The whole life of a message -/

/-- **Main statement**, from every reachable store: a successful post stores its message at a free
    address; a message there is kept by every step but the appends and the close of its author --
    other posts among them -- so along a run without a close it is only extended; and from the close
    of its author on every loader refuses the address until a post stores a message there again. -/
theorem message_integrity (h : (program R).Reach anyStep σ) :
    (∀ sv accounts kind body candidates ti ai rs rp maxFee σ', (program R).step σ
        (.call sv accounts (.fillSlot kind body candidates ti ai rs rp maxFee)) σ' →
      Posted R sv accounts ⟨kind, body, rs, rp, maxFee⟩ candidates σ σ' ∧
        ∀ k m, σ.cell R k = .holds (.content m) → σ'.cell R k = .holds (.content m)) ∧
    (∀ k m, σ.cell R k = .holds (.content m) → m.body.length ≤ maxBodyLen ∧
      (∀ e σ', (program R).step σ e σ' → MessageStep k m e (σ'.cell R k)) ∧
      ∀ tr σ', (program R).Path anyStep σ tr σ' →
        (∀ s ∈ tr, ¬ Closes k m.header.author s.2.1) →
          ∃ m', σ'.cell R k = .holds (.content m') ∧ Extends m m') ∧
    ∀ K, R.CollisionFree K → (program R).Reach (Within K) σ → ∀ k m e σ₁,
      σ.cell R k = .holds (.content m) → (program R).step σ e σ₁ → Within K σ e σ₁ →
        Closes k m.header.author e → ∀ tr σ', (program R).Path (Within K) σ₁ tr σ' →
          (∀ s ∈ tr, ¬ PostsAt R k s) → ∀ a : AccountInfo, a.key = k → ¬ Accepts R σ' a := by
  refine ⟨?_, fun k m hm => ⟨reach_body_le h hm, fun e σ' hs => reach_messageStep h hs hm,
    fun tr σ' hp hopen => message_kept h hm hp hopen⟩, ?_⟩
  · intro sv accounts kind body candidates ti ai rs rp maxFee σ' hs
    obtain ⟨d, hd, hpost, -, -, hc⟩ := processFillSlot_ok (reach_tidy h) hs.2
    have hposted := hd.posted hc
    rw [hpost] at hposted
    refine ⟨hposted, fun k m hm => ?_⟩
    have hstep := reach_messageStep h hs hm
    generalize σ'.cell R k = y at hstep ⊢
    cases hstep with
    | keep => rfl
    | append m' happ =>
      obtain ⟨_, _, _, _, _, he, -⟩ := happ
      cases he
    | close hc =>
      obtain ⟨_, _, he, -⟩ := hc
      cases he
  · intro K hK hr k m e σ₁ hm hs hin hc tr σ' hp hno a hak
    subst hak
    obtain ⟨ha, ht⟩ := (reach_wellFormed h).placed _ _ hm
    have hf := reach_closed h hs hc
    exact (closed_stays hK (.step hr hs hin) ha (reach_live_within hr ht) hf hp hno).rejected

/-- What the cell says, if it is a message. -/
def Cell.message? : Cell → Option ContentNode
  | .holds (.content m) => some m
  | _ => none

theorem Cell.message?_eq_some {x : Cell} (h : x.message? = some m) : x = .holds (.content m) := by
  unfold Cell.message? at h
  split at h
  · cases h
    rfl
  · cases h

/-- In the channel: the post is stored, and once its author closed it no loader accepts its
    address. -/
theorem message_integrity_inUse :
    Posted localnet Local.sysvars Local.postBob.accounts ⟨0, [104, 105], 0, 0, 1000⟩ [⟨0, 0⟩]
      (afterCalls localnet Local.history Local.genesis)
      (afterCalls localnet [Local.postBob] (afterCalls localnet Local.history Local.genesis)) ∧
    ∀ a : AccountInfo, a.key = Local.addressOf (.content Local.channel 0 0) →
      ¬ Accepts localnet
        (afterCalls localnet [Local.closePost] (afterCalls localnet Local.inUse Local.genesis)) a := by
  refine ⟨((message_integrity (Local.history_reach fun _ _ _ _ => trivial)).1 _ _ _ _ _ _ _ _ _ _ _
    Local.postBob_step).1, ?_⟩
  obtain ⟨m, hm, hauthor⟩ := Option.map_eq_some_iff.mp (show (((afterCalls localnet Local.inUse
    Local.genesis).cell localnet) (Local.addressOf (.content Local.channel 0 0))).message?.map
      (·.header.author) = some Local.bob by decide +kernel)
  have hplain : [Local.closePost].all Call.isPlain = true := by decide +kernel
  have hcloses : Closes (Local.addressOf (.content Local.channel 0 0)) m.header.author
      Local.closePost.event :=
    ⟨_, _, rfl, rfl, Local.signing Local.bob, List.mem_cons_self, rfl, hauthor.symm⟩
  exact (message_integrity (Local.inUse_reach.mono fun _ _ _ _ => trivial)).2.2 _
    localnet_collisionFree Local.inUse_reach _ m _ _ (Cell.message?_eq_some hm) Local.closePost_step
    (within_of_plain hplain _ (List.mem_singleton_self _) _ _) hcloses [] _ .nil nofun

end Txtcel
