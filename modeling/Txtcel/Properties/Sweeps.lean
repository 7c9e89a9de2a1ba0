import Txtcel.Spec.Success
import Txtcel.Properties.PostCharge

/-!
# A sweep moves exactly the distinct excess

A sweep goes through a list of shards that may repeat and may name shards nobody opened. What it
does is a function of the SET of listed initialized shards: each is left with the minimum, and the
recipient gets the sum of what they held above it.

* `drained`: that function, and `sweep_eq_drained`: the loop computes it;
* `sweepShards_iff`: when the loop succeeds, with nothing in it that depends on the order;
* `SweepLaws`: exactness, idempotence, concatenation, permutation, rejection, for one instruction;
* `sweeps_exact`: both sweep instructions obey them;
* `sweeps_exact_risen`: a shard that holds less than the minimum is not brought up to it.
-/

namespace Txtcel

open Lib Exec Function

variable {R : Runtime} {sv : Sysvars} {σ σ' τ : Ledger} {k q : Pubkey} {r : Nat}
  {ks : List Pubkey} {I : Type}

/-! ## 1. The closed form -/

namespace Ledger

/-- `k` is listed, and initialized. -/
def Listed (σ : Ledger) (ks : List Pubkey) (k : Pubkey) : Prop := k ∈ ks ∧ ¬ σ.Free k

instance (σ : Ledger) (ks : List Pubkey) (k : Pubkey) : Decidable (σ.Listed ks k) :=
  inferInstanceAs (Decidable (_ ∧ _))

/-- What the distinct listed initialized accounts hold above the minimum. -/
noncomputable def excess (σ : Ledger) (r : Nat) (ks : List Pubkey) : Nat :=
  total fun k => if σ.Listed ks k then σ.lamports k - r else 0

/-- The listed initialized accounts are left with the minimum, and `q` gets the excess. -/
noncomputable def drained (σ : Ledger) (r : Nat) (q : Pubkey) (ks : List Pubkey) : Ledger :=
  { σ with
    lamports := fun j =>
      if j = q then σ.lamports q + σ.excess r ks
      else if σ.Listed ks j then min (σ.lamports j) r
      else σ.lamports j }

@[simp] theorem drained_data : (σ.drained r q ks).data = σ.data := rfl
@[simp] theorem drained_owner : (σ.drained r q ks).owner = σ.owner := rfl

theorem drained_self : (σ.drained r q ks).lamports q = σ.lamports q + σ.excess r ks := if_pos rfl

theorem drained_of_listed (hq : k ≠ q) (h : σ.Listed ks k) :
    (σ.drained r q ks).lamports k = min (σ.lamports k) r :=
  (if_neg hq).trans (if_pos h)

theorem drained_of_not (hq : k ≠ q) (h : ¬ σ.Listed ks k) :
    (σ.drained r q ks).lamports k = σ.lamports k :=
  (if_neg hq).trans (if_neg h)

/-- What is listed depends on the owners and the data. -/
theorem listed_congr (ho : τ.owner = σ.owner) (hd : τ.data = σ.data) :
    τ.Listed ks k ↔ σ.Listed ks k := by
  rw [Listed, Listed, Free, Free, ho, hd]

theorem listed_cons_of_free {j : Pubkey} (h : σ.Free j) :
    σ.Listed (j :: ks) k ↔ σ.Listed ks k := by
  constructor
  · rintro ⟨hm, hf⟩
    rcases List.mem_cons.mp hm with rfl | hm
    · exact absurd h hf
    · exact ⟨hm, hf⟩
  · exact fun hl => ⟨List.mem_cons_of_mem _ hl.1, hl.2⟩

theorem listed_cons {j : Pubkey} (h : ¬ σ.Free j) :
    σ.Listed (j :: ks) k ↔ k = j ∨ σ.Listed ks k := by
  constructor
  · rintro ⟨hm, hf⟩
    exact (List.mem_cons.mp hm).imp id fun hm => ⟨hm, hf⟩
  · rintro (rfl | hl)
    · exact ⟨List.mem_cons_self, h⟩
    · exact ⟨List.mem_cons_of_mem _ hl.1, hl.2⟩

/-- **The closed form depends on the set of listed accounts.** -/
theorem excess_congr {ls : List Pubkey} (h : ∀ k, σ.Listed ks k ↔ σ.Listed ls k) :
    σ.excess r ks = σ.excess r ls := by
  unfold excess
  exact congrArg total (funext fun k => if_congr (h k) rfl rfl)

theorem drained_congr {ls : List Pubkey} (h : ∀ k, σ.Listed ks k ↔ σ.Listed ls k) :
    σ.drained r q ks = σ.drained r q ls := by
  unfold drained
  rw [excess_congr h]
  ext1
  · exact funext fun k => if_congr Iff.rfl rfl (if_congr (h k) rfl rfl)
  · rfl
  · rfl

/-- One payment first: the excess of the rest is what is left of the excess. -/
theorem excess_cons {j : Pubkey} (hj : ¬ σ.Free j) (hjq : j ≠ q) (hq : ∀ k, σ.Listed ks k → k ≠ q) :
    σ.excess r (j :: ks) =
      (σ.lamports j - r) + (σ.pay j q (σ.lamports j - r)).excess r ks := by
  have hpoint : ∀ k, (if σ.Listed (j :: ks) k then σ.lamports k - r else 0) =
      (if k = j then σ.lamports j - r else 0) +
        if (σ.pay j q (σ.lamports j - r)).Listed ks k then
          (σ.pay j q (σ.lamports j - r)).lamports k - r else 0 := by
    intro k
    simp only [listed_cons hj, listed_congr (pay_owner σ j q _) (pay_data σ j q _)]
    by_cases hk : k = j
    · subst hk
      -- what is left of a drained shard has no excess
      rw [if_pos (.inl rfl), if_pos rfl, pay_src _ _ _ _ hjq.symm]
      split <;> omega
    · by_cases hl : σ.Listed ks k
      · rw [if_pos (.inr hl), if_neg hk, if_pos hl, pay_other _ _ _ _ _ hk (hq k hl), Nat.zero_add]
      · rw [if_neg (not_or.mpr ⟨hk, hl⟩), if_neg hk, if_neg hl]
  unfold excess
  rw [funext hpoint, total_add, total_single]

end Ledger

/-- **The loop computes the closed form**, when the recipient is not one of the shards. -/
theorem sweep_eq_drained (hq : ∀ k, σ.Listed ks k → k ≠ q) :
    σ.sweep r q ks = σ.drained r q ks := by
  induction ks generalizing σ with
  | nil =>
    have hnone : ∀ k, ¬ σ.Listed [] k := fun k h => by cases h.1
    have hzero : σ.excess r [] = 0 := by
      simp only [Ledger.excess, hnone, if_false]
      exact total_zero
    ext1
    · funext k
      by_cases hk : k = q
      · subst hk
        rw [Ledger.drained_self, hzero]
        rfl
      · rw [Ledger.drained_of_not hk (hnone k)]
        rfl
    · rfl
    · rfl
  | cons j ks ih =>
    unfold Ledger.sweep
    split
    · rename_i hf
      rw [ih fun k hl => hq k ((Ledger.listed_cons_of_free hf).mpr hl)]
      exact Ledger.drained_congr fun k => (Ledger.listed_cons_of_free hf).symm
    · rename_i hf
      have hjq : j ≠ q := hq j ((Ledger.listed_cons hf).mpr (.inl rfl))
      have hqs : ∀ k, σ.Listed ks k → k ≠ q := fun k hl =>
        hq k ((Ledger.listed_cons hf).mpr (.inr hl))
      have hiff : ∀ k, (σ.pay j q (σ.lamports j - r)).Listed ks k ↔ σ.Listed ks k := fun k =>
        Ledger.listed_congr rfl rfl
      rw [ih fun k hl => hqs k ((hiff k).mp hl)]
      ext1
      · funext k
        by_cases hk : k = q
        · subst hk
          rw [Ledger.drained_self, Ledger.drained_self, Ledger.excess_cons hf hjq hqs,
            Ledger.pay_dst _ _ _ _ hjq.symm]
          omega
        · by_cases hkj : k = j
          · subst hkj
            rw [Ledger.drained_of_listed hk ((Ledger.listed_cons hf).mpr (.inl rfl))]
            have hpaid := Ledger.pay_src σ k q (σ.lamports k - r) (Ne.symm hk)
            by_cases hl : σ.Listed ks k
            · rw [Ledger.drained_of_listed hk ((hiff k).mpr hl), hpaid]
              omega
            · rw [Ledger.drained_of_not hk (mt (hiff k).mp hl), hpaid]
              omega
          · have hsame := Ledger.pay_other σ k j q (σ.lamports j - r) hkj hk
            by_cases hl : σ.Listed ks k
            · rw [Ledger.drained_of_listed hk ((hiff k).mpr hl), hsame,
                Ledger.drained_of_listed hk ((Ledger.listed_cons hf).mpr (.inr hl))]
            · rw [Ledger.drained_of_not hk (mt (hiff k).mp hl), hsame, Ledger.drained_of_not hk]
              exact fun h => ((Ledger.listed_cons hf).mp h).elim hkj hl
      · rfl
      · rfl

/-! ## 2. When the loop succeeds -/

/-- What the loop asks of one entry: a shard nobody opened is skipped. -/
def EntryOk (R : Runtime) (σ : Ledger) (P : Pubkey → I → Prop) (x : AccountInfo × I) : Prop :=
  ¬ σ.Free x.1.key → x.1.isWritable = true ∧ σ.owner x.1.key = R.programId ∧ P x.1.key x.2

/-- The recipient can hold the excess. -/
def Room (σ : Ledger) (r : Nat) (q : Pubkey) (ks : List Pubkey) : Prop :=
  σ.excess r ks = 0 ∨ σ.lamports q + σ.excess r ks < 2 ^ 64

/-- A sweep of one shard, to somebody else. -/
theorem sweepShardExcess_iff_of_ne {a w : AccountInfo} (hne : w.key ≠ a.key) :
    sweepShardExcess a w r σ = .ok ((), σ') ↔
      (σ.lamports a.key - r = 0 ∨ σ.lamports w.key + (σ.lamports a.key - r) < 2 ^ 64) ∧
        σ' = σ.pay a.key w.key (σ.lamports a.key - r) := by
  rw [sweepShardExcess_iff, Ledger.pay_dst _ _ _ _ hne]
  refine and_congr_left fun _ => ?_
  omega

/-- **When the loop succeeds, and what it does**: nothing in it depends on the order or on
    repetitions. -/
theorem sweepShards_iff {w : AccountInfo} {validate : AccountInfo → I → Handler UInt8}
    {P : Pubkey → I → Prop} (hv : ∀ a i τ, (∃ b τ', validate a i τ = .ok (b, τ')) ↔ P a.key i)
    (hpure : ∀ a i b τ τ', validate a i τ = .ok (b, τ') → τ' = τ)
    {xs : List (AccountInfo × I)} (hw : ∀ x ∈ xs, ¬ σ.Free x.1.key → x.1.key ≠ w.key) :
    sweepShards R w r validate xs σ = .ok ((), σ') ↔
      (∀ x ∈ xs, EntryOk R σ P x) ∧ Room σ r w.key (xs.map (·.1.key)) ∧
        σ' = σ.drained r w.key (xs.map (·.1.key)) := by
  induction xs generalizing σ with
  | nil =>
    have hpost : σ.sweep r w.key [] = σ.drained r w.key [] :=
      sweep_eq_drained fun k h => by cases h.1
    have hzero : σ.excess r [] = 0 := by
      have hself := congrArg (fun τ => τ.lamports w.key) hpost
      simp only [Ledger.sweep, Ledger.drained_self] at hself
      omega
    simp only [sweepShards, pure_eq_ok, List.map_nil, ← hpost, Ledger.sweep, true_and]
    exact ⟨fun h => ⟨by simp, .inl hzero, h⟩, fun h => h.2.2⟩
  | cons x xs ih =>
    obtain ⟨a, i⟩ := x
    have hws : ∀ x ∈ xs, ¬ σ.Free x.1.key → x.1.key ≠ w.key := fun x hx =>
      hw x (List.mem_cons_of_mem _ hx)
    by_cases hf : σ.Free a.key
    · have hlisted : ∀ k, σ.Listed (a.key :: xs.map (·.1.key)) k ↔
          σ.Listed (xs.map (·.1.key)) k := fun k => Ledger.listed_cons_of_free hf
      have hskip : EntryOk R σ P (a, i) := fun hn => absurd hf hn
      have hstep : sweepShards R w r validate ((a, i) :: xs) σ = .ok ((), σ') ↔
          sweepShards R w r validate xs σ = .ok ((), σ') := by
        simp only [sweepShards, bind_eq_ok (x := isUninitialized _), isUninitialized_eq_ok,
          and_assoc, true_and, existsAndEq, hf, decide_true, if_true]
      rw [hstep, ih hws, List.map_cons, Room, Room, Ledger.excess_congr hlisted,
        Ledger.drained_congr hlisted]
      simp only [List.forall_mem_cons, hskip, true_and]
    · have hne : a.key ≠ w.key := hw (a, i) List.mem_cons_self hf
      have hpaid : (σ.pay a.key w.key (σ.lamports a.key - r)).lamports w.key =
          σ.lamports w.key + (σ.lamports a.key - r) := Ledger.pay_dst _ _ _ _ hne.symm
      have hlisted : ∀ k, σ.Listed (xs.map (·.1.key)) k → k ≠ w.key := by
        rintro k ⟨hm, hfk⟩
        obtain ⟨x, hx, rfl⟩ := List.mem_map.mp hm
        exact hws x hx hfk
      have hcons : ∀ k, σ.Listed (a.key :: xs.map (·.1.key)) k → k ≠ w.key := by
        intro k hk
        rcases (Ledger.listed_cons hf).mp hk with rfl | hl
        · exact hne
        · exact hlisted k hl
      have hexcess := Ledger.excess_cons (r := r) hf hne hlisted
      have hpost : (σ.pay a.key w.key (σ.lamports a.key - r)).drained r w.key
          (xs.map (·.1.key)) = σ.drained r w.key (a.key :: xs.map (·.1.key)) := by
        rw [← sweep_eq_drained hcons, Ledger.sweep, if_neg hf]
        exact (sweep_eq_drained (σ := σ.pay a.key w.key (σ.lamports a.key - r)) hlisted).symm
      have hstep : sweepShards R w r validate ((a, i) :: xs) σ = .ok ((), σ') ↔
          (a.isWritable = true ∧ σ.owner a.key = R.programId ∧ P a.key i) ∧
            (σ.lamports a.key - r = 0 ∨ σ.lamports w.key + (σ.lamports a.key - r) < 2 ^ 64) ∧
            sweepShards R w r validate xs (σ.pay a.key w.key (σ.lamports a.key - r)) =
              .ok ((), σ') := by
        simp only [sweepShards, bind_eq_ok, isUninitialized_eq_ok, assertWritable_eq_ok,
          assertOwnedBy_eq_ok, and_assoc, true_and, existsAndEq, exists_and_left, exists_const, hf,
          decide_false, Bool.false_eq_true, if_false]
        constructor
        · rintro ⟨hwr, ho, b, τ, hval, ⟨⟩, υ, hsw, hrest⟩
          obtain rfl := hpure _ _ _ _ _ hval
          obtain ⟨hroom, rfl⟩ := (sweepShardExcess_iff_of_ne hne.symm).mp hsw
          exact ⟨hwr, ho, (hv a i τ).mp ⟨b, τ, hval⟩, hroom, hrest⟩
        · rintro ⟨hwr, ho, hP, hroom, hrest⟩
          obtain ⟨b, τ, hval⟩ := (hv a i σ).mpr hP
          obtain rfl := hpure _ _ _ _ _ hval
          exact ⟨hwr, ho, b, _, hval, (), _, (sweepShardExcess_iff_of_ne hne.symm).mpr ⟨hroom, rfl⟩,
            hrest⟩
      have hih := ih (σ := σ.pay a.key w.key (σ.lamports a.key - r)) hws
      rw [hstep, hih, List.map_cons, Room, Room, hexcess, hpaid, hpost]
      have hentries : (∀ x ∈ xs, EntryOk R (σ.pay a.key w.key (σ.lamports a.key - r)) P x) ↔
          ∀ x ∈ xs, EntryOk R σ P x := Iff.rfl
      have hentry : EntryOk R σ P (a, i) ↔
          a.isWritable = true ∧ σ.owner a.key = R.programId ∧ P a.key i :=
        ⟨fun h => h hf, fun h _ => h⟩
      rw [hentries, List.forall_mem_cons, hentry]
      generalize (σ.pay a.key w.key (σ.lamports a.key - r)).excess r (xs.map (·.1.key)) = e
      constructor
      · rintro ⟨hent, hroom, hall, hrest, hσ⟩
        exact ⟨⟨hent, hall⟩, by omega, hσ⟩
      · rintro ⟨⟨hent, hall⟩, hroom, hσ⟩
        exact ⟨hent, by omega, hall, by omega, hσ⟩

/-- One loop after the other is the loop over both lists. -/
theorem sweepShards_append {w : AccountInfo} {validate : AccountInfo → I → Handler UInt8}
    {xs ys : List (AccountInfo × I)} :
    sweepShards R w r validate (xs ++ ys) σ = .ok ((), σ') ↔
      ∃ τ, sweepShards R w r validate xs σ = .ok ((), τ) ∧
        sweepShards R w r validate ys τ = .ok ((), σ') := by
  induction xs generalizing σ with
  | nil => simp [sweepShards]
  | cons x xs ih =>
    obtain ⟨a, i⟩ := x
    simp only [List.cons_append, sweepShards, bind_eq_ok (x := isUninitialized _),
      isUninitialized_eq_ok, and_assoc, true_and, existsAndEq]
    by_cases hf : σ.Free a.key
    · simp only [hf, decide_true, if_true]
      exact ih
    · simp only [hf, decide_false, Bool.false_eq_true, if_false, bind_eq_ok, ih]
      constructor
      · rintro ⟨u, τ₁, h1, v, τ₂, h2, b, τ₃, h3, t, τ₄, h4, υ, h5, h6⟩
        exact ⟨υ, ⟨u, τ₁, h1, v, τ₂, h2, b, τ₃, h3, t, τ₄, h4, h5⟩, h6⟩
      · rintro ⟨υ, ⟨u, τ₁, h1, v, τ₂, h2, b, τ₃, h3, t, τ₄, h4, h5⟩, h6⟩
        exact ⟨u, τ₁, h1, v, τ₂, h2, b, τ₃, h3, t, τ₄, h4, υ, h5, h6⟩

/-! ## 3. The laws of a sweep -/

/-- The recipient is not itself a listed shard. -/
def Unlisted (w : AccountInfo) (l : List (AccountInfo × I)) : Prop := ∀ x ∈ l, x.1.key ≠ w.key

/-- The accounts of a list of shards and indices. -/
def shardKeys (l : List (AccountInfo × I)) : List Pubkey := l.map (·.1.key)

/-- **The laws of a sweep instruction** from the ledger `σ`: `run` takes the pairs of shards and
    indices, `w` is the account it pays, `r` the minimum, and `IsShard` what an index stands for. -/
structure SweepLaws (R : Runtime) (σ : Ledger) (run : List (AccountInfo × I) → Handler Unit)
    (w : AccountInfo) (r : Nat) (IsShard : Pubkey → I → Prop) : Prop where
  drains : ∀ l σ', Unlisted w l → run l σ = .ok ((), σ') → ∀ x ∈ l, ¬ σ.Free x.1.key →
    σ'.lamports x.1.key = min (σ.lamports x.1.key) r
  gains : ∀ l σ', Unlisted w l → run l σ = .ok ((), σ') →
    σ'.lamports w.key = σ.lamports w.key + σ.excess r (shardKeys l)
  others : ∀ l σ', Unlisted w l → run l σ = .ok ((), σ') →
    (∀ j, j ≠ w.key → ¬ σ.Listed (shardKeys l) j → σ'.lamports j = σ.lamports j) ∧
      σ'.data = σ.data ∧ σ'.owner = σ.owner
  /-- Sweeping again at once succeeds and moves nothing. -/
  again : ∀ l σ', Unlisted w l → run l σ = .ok ((), σ') → run l σ' = .ok ((), σ')
  append : ∀ l₁ l₂ σ', l₁ ≠ [] → l₂ ≠ [] → (run (l₁ ++ l₂) σ = .ok ((), σ') ↔
    ∃ τ, run l₁ σ = .ok ((), τ) ∧ run l₂ τ = .ok ((), σ'))
  perm : ∀ l l' σ', Unlisted w l → l.Perm l' →
    (run l σ = .ok ((), σ') ↔ run l' σ = .ok ((), σ'))
  rejects : ∀ l x, x ∈ l → ¬ σ.Free x.1.key →
    (σ.owner x.1.key ≠ R.programId ∨ ¬ IsShard x.1.key x.2) → ∀ σ', run l σ ≠ .ok ((), σ')

theorem Unlisted.listed {w : AccountInfo} {l : List (AccountInfo × I)} (h : Unlisted w l)
    (hk : σ.Listed (shardKeys l) k) : k ≠ w.key := by
  obtain ⟨x, hx, rfl⟩ := List.mem_map.mp hk.1
  exact h x hx

/-- A drained ledger has nothing left to sweep. -/
theorem drained_drained (hq : ∀ k, σ.Listed ks k → k ≠ q) :
    (σ.drained r q ks).excess r ks = 0 ∧
      (σ.drained r q ks).drained r q ks = σ.drained r q ks := by
  have hiff : ∀ k, (σ.drained r q ks).Listed ks k ↔ σ.Listed ks k := fun k =>
    Ledger.listed_congr rfl rfl
  have hzero : (σ.drained r q ks).excess r ks = 0 := by
    have hpoint : ∀ k, (if (σ.drained r q ks).Listed ks k then
        (σ.drained r q ks).lamports k - r else 0) = 0 := by
      intro k
      split
      · rename_i hl
        have hl' := (hiff k).mp hl
        rw [Ledger.drained_of_listed (hq k hl') hl']
        omega
      · rfl
    unfold Ledger.excess
    rw [funext hpoint]
    exact total_zero
  refine ⟨hzero, ?_⟩
  ext1
  · funext k
    by_cases hk : k = q
    · subst hk
      rw [Ledger.drained_self, hzero, Nat.add_zero]
    · by_cases hl : σ.Listed ks k
      · rw [Ledger.drained_of_listed hk ((hiff k).mpr hl), Ledger.drained_of_listed hk hl]
        omega
      · rw [Ledger.drained_of_not hk (mt (hiff k).mp hl)]
  · rfl
  · rfl

/-- **The laws hold of every instruction that is a check of owners and data, then the loop.** -/
theorem sweepLaws_of {run : List (AccountInfo × I) → Handler Unit} {w : AccountInfo}
    {validate : AccountInfo → I → Handler UInt8} {P : Pubkey → I → Prop} {Ready : Ledger → Prop}
    (hready : ∀ σ τ : Ledger, τ.owner = σ.owner → τ.data = σ.data → Ready σ → Ready τ)
    (hrun : ∀ l σ σ', run l σ = .ok ((), σ') ↔
      Ready σ ∧ l ≠ [] ∧ sweepShards R w r validate l σ = .ok ((), σ'))
    (hv : ∀ a i τ, (∃ b τ', validate a i τ = .ok (b, τ')) ↔ P a.key i)
    (hpure : ∀ a i b τ τ', validate a i τ = .ok (b, τ') → τ' = τ) (σ : Ledger) :
    SweepLaws R σ run w r P := by
  have hcheck : ∀ a i b τ τ', validate a i τ = .ok (b, τ') → P a.key i ∧ τ' = τ :=
    fun a i b τ τ' h => ⟨(hv a i τ).mp ⟨b, τ', h⟩, hpure a i b τ τ' h⟩
  have hiff : ∀ l σ', Unlisted w l → (run l σ = .ok ((), σ') ↔ Ready σ ∧ l ≠ [] ∧
      (∀ x ∈ l, EntryOk R σ P x) ∧ Room σ r w.key (shardKeys l) ∧
        σ' = σ.drained r w.key (shardKeys l)) := by
    intro l σ' hl
    rw [hrun, sweepShards_iff hv hpure fun x hx _ => hl x hx]
    rfl
  refine ⟨?_, ?_, ?_, ?_, ?_, ?_, ?_⟩
  · intro l σ' hl h x hx hf
    obtain ⟨-, -, -, -, rfl⟩ := (hiff l σ' hl).mp h
    exact Ledger.drained_of_listed (hl x hx) ⟨List.mem_map.mpr ⟨x, hx, rfl⟩, hf⟩
  · intro l σ' hl h
    obtain ⟨-, -, -, -, rfl⟩ := (hiff l σ' hl).mp h
    exact Ledger.drained_self
  · intro l σ' hl h
    obtain ⟨-, -, -, -, rfl⟩ := (hiff l σ' hl).mp h
    exact ⟨fun j hj hn => Ledger.drained_of_not hj hn, rfl, rfl⟩
  · intro l σ' hl h
    obtain ⟨hr, hne, hent, -, rfl⟩ := (hiff l σ' hl).mp h
    obtain ⟨hzero, hsame⟩ := drained_drained (r := r) fun k hk => hl.listed (σ := σ) hk
    rw [hrun, sweepShards_iff hv hpure fun x hx _ => hl x hx]
    exact ⟨hready σ _ rfl rfl hr, hne, hent, .inl hzero, hsame.symm⟩
  · intro l₁ l₂ σ' h1 h2
    simp only [hrun, sweepShards_append]
    constructor
    · rintro ⟨hr, -, τ, hτ, hσ⟩
      obtain ⟨rfl, -⟩ := sweepShards_ok hcheck hτ
      exact ⟨_, ⟨hr, h1, hτ⟩, hready σ _ (by simp) (by simp) hr, h2, hσ⟩
    · rintro ⟨τ, ⟨hr, -, hτ⟩, -, -, hσ⟩
      exact ⟨hr, by simp [h1], τ, hτ, hσ⟩
  · intro l l' σ' hl hp
    have hl' : Unlisted w l' := fun x hx => hl x (hp.mem_iff.mpr hx)
    have hkeys : ∀ k, σ.Listed (shardKeys l) k ↔ σ.Listed (shardKeys l') k := fun k =>
      and_congr_left' (hp.map _).mem_iff
    have hnil : l ≠ [] ↔ l' ≠ [] := not_congr ⟨fun h => (h ▸ hp).nil_eq.symm, fun h => (h ▸ hp).eq_nil⟩
    rw [hiff l σ' hl, hiff l' σ' hl', Room, Room, Ledger.excess_congr hkeys,
      Ledger.drained_congr hkeys, hnil]
    simp only [hp.mem_iff]
  · intro l x hx hf hbad σ' h
    obtain ⟨-, -, hloop⟩ := (hrun l σ σ').mp h
    obtain ⟨ho, hP⟩ := (sweepShards_ok hcheck hloop).2 x hx hf
    exact hbad.elim (fun h => h ho) fun h => h hP

/-! ## 4. The two instructions -/

/-- The account of a treasury shard. -/
def TreasuryShardAt (R : Runtime) (k : Pubkey) (i : UInt16) : Prop :=
  i < nTreasuryShards ∧ R.HasAddress (.treasuryShard i) k

/-- The account of an author shard of the thread `t`. -/
def AuthorShardAt (R : Runtime) (t k : Pubkey) (i : UInt8) : Prop :=
  i < nAuthorFeeShards ∧ R.HasAddress (.authorFee t i) k

theorem zip_fst_snd {α β : Type} (l : List (α × β)) : (l.map (·.1)).zip (l.map (·.2)) = l := by
  induction l with
  | nil => rfl
  | cons x l ih => simp [ih]

/-- `SweepTreasury` on the listed pairs. -/
def sweepTreasury (R : Runtime) (sv : Sysvars) (settings w : AccountInfo)
    (l : List (AccountInfo × UInt16)) : Handler Unit :=
  processInstruction R sv (settings :: w :: l.map (·.1)) (.sweepTreasury (l.map (·.2)))

/-- `SweepAuthorFees` on the listed pairs. -/
def sweepAuthorFees (R : Runtime) (sv : Sysvars) (thread w : AccountInfo)
    (l : List (AccountInfo × UInt8)) : Handler Unit :=
  processInstruction R sv (thread :: w :: l.map (·.1)) (.sweepAuthorFees (l.map (·.2)))

/-- The settings name `w` as the treasury. -/
def TreasuryReady (R : Runtime) (settings w : AccountInfo) (σ : Ledger) : Prop :=
  ∃ x, loadSettings R settings σ = .ok (x, σ) ∧ w.key = x.treasury ∧ w.isWritable = true

/-- The thread names `w` as its author, who signed. -/
def AuthorReady (R : Runtime) (thread w : AccountInfo) (σ : Ledger) : Prop :=
  ∃ x, loadThread R thread σ = .ok (x, σ) ∧ w.key = x.author ∧ w.isSigner = true ∧
    w.isWritable = true

theorem sweepTreasury_iff {settings w : AccountInfo} {l : List (AccountInfo × UInt16)} :
    sweepTreasury R sv settings w l σ = .ok ((), σ') ↔ TreasuryReady R settings w σ ∧ l ≠ [] ∧
      sweepShards R w (sv.rent 0) (validateTreasuryShard R) l σ = .ok ((), σ') := by
  simp only [sweepTreasury, processInstruction, processSweepTreasury, bind_eq_ok, Prod.exists,
    nextAccountInfo_eq_ok, failIf_eq_ok, assertWritable_eq_ok, and_assoc, true_and, existsAndEq,
    exists_and_left, exists_const, ne_eq, not_not, List.cons.injEq, List.length_map, zip_fst_snd,
    List.map_eq_nil_iff]
  constructor
  · rintro ⟨x, τ, hload, hw, hwr, hne, hloop⟩
    obtain ⟨-, -, -, rfl⟩ := loadSettings_ok hload
    exact ⟨⟨x, hload, hw, hwr⟩, hne, hloop⟩
  · rintro ⟨⟨x, hload, hw, hwr⟩, hne, hloop⟩
    exact ⟨x, σ, hload, hw, hwr, hne, hloop⟩

theorem sweepAuthorFees_iff {thread w : AccountInfo} {l : List (AccountInfo × UInt8)} :
    sweepAuthorFees R sv thread w l σ = .ok ((), σ') ↔ AuthorReady R thread w σ ∧ l ≠ [] ∧
      sweepShards R w (sv.rent 0) (validateAuthorFeeShard R thread.key) l σ = .ok ((), σ') := by
  simp only [sweepAuthorFees, processInstruction, processSweepAuthorFees, bind_eq_ok, Prod.exists,
    nextAccountInfo_eq_ok, failIf_eq_ok, assertSigner_eq_ok, assertWritable_eq_ok, and_assoc,
    true_and, existsAndEq, exists_and_left, exists_const, ne_eq, not_not, List.cons.injEq,
    List.length_map, zip_fst_snd, List.map_eq_nil_iff]
  constructor
  · rintro ⟨x, τ, hload, hw, hsig, hwr, hne, hloop⟩
    obtain ⟨-, -, rfl⟩ := loadThread_ok hload
    exact ⟨⟨x, hload, hw, hsig, hwr⟩, hne, hloop⟩
  · rintro ⟨⟨x, hload, hw, hsig, hwr⟩, hne, hloop⟩
    exact ⟨x, σ, hload, hw, hsig, hwr, hne, hloop⟩

/-- A loader reads owners and data. -/
theorem TreasuryReady.congr {settings w : AccountInfo} (ho : τ.owner = σ.owner)
    (hd : τ.data = σ.data) (h : TreasuryReady R settings w σ) : TreasuryReady R settings w τ := by
  obtain ⟨x, hload, hw⟩ := h
  refine ⟨x, ?_, hw⟩
  simp only [loadSettings, bind_eq_ok, ownerOf_eq_ok, dataOf_eq_ok, orFail_eq_ok, failIf_eq_ok,
    assertPda_eq_ok, pure_eq_ok, and_assoc, true_and, and_true, existsAndEq, exists_and_left,
    exists_const, Prod.exists] at hload ⊢
  rwa [ho, hd]

theorem AuthorReady.congr {thread w : AccountInfo} (ho : τ.owner = σ.owner)
    (hd : τ.data = σ.data) (h : AuthorReady R thread w σ) : AuthorReady R thread w τ := by
  obtain ⟨x, hload, hw⟩ := h
  refine ⟨x, ?_, hw⟩
  simp only [loadThread, bind_eq_ok, assertOwnedBy_eq_ok, dataOf_eq_ok, orFail_eq_ok, failIf_eq_ok,
    pure_eq_ok, and_assoc, true_and, and_true, existsAndEq, exists_and_left, exists_const]
    at hload ⊢
  rwa [ho, hd]

theorem validateTreasuryShard_iff {a : AccountInfo} {i : UInt16} :
    (∃ b τ', validateTreasuryShard R a i τ = .ok (b, τ')) ↔ TreasuryShardAt R a.key i := by
  simp only [validateTreasuryShard, bind_eq_ok, failIf_eq_ok, orFail_eq_ok, assertPda_eq_ok,
    pure_eq_ok, and_assoc, true_and, and_true, existsAndEq, exists_and_left, exists_const,
    Prod.exists, UInt16.not_le]
  exact Iff.rfl

theorem validateAuthorFeeShard_iff {t : Pubkey} {a : AccountInfo} {i : UInt8} :
    (∃ b τ', validateAuthorFeeShard R t a i τ = .ok (b, τ')) ↔ AuthorShardAt R t a.key i := by
  simp only [validateAuthorFeeShard, bind_eq_ok, failIf_eq_ok, orFail_eq_ok, assertPda_eq_ok,
    pure_eq_ok, and_assoc, true_and, and_true, existsAndEq, exists_and_left, exists_const,
    Prod.exists, UInt8.not_le]
  exact Iff.rfl

theorem treasurySweep_laws (settings w : AccountInfo) (σ : Ledger) :
    SweepLaws R σ (sweepTreasury R sv settings w) w (sv.rent 0) (TreasuryShardAt R) :=
  sweepLaws_of (fun _ _ ho hd => .congr ho hd) (fun _ _ _ => sweepTreasury_iff)
    (fun _ _ _ => validateTreasuryShard_iff)
    (fun _ _ _ _ _ h => (validateTreasuryShard_ok h).2.2) σ

theorem authorSweep_laws (thread w : AccountInfo) (σ : Ledger) :
    SweepLaws R σ (sweepAuthorFees R sv thread w) w (sv.rent 0) (AuthorShardAt R thread.key) :=
  sweepLaws_of (fun _ _ ho hd => .congr ho hd) (fun _ _ _ => sweepAuthorFees_iff)
    (fun _ _ _ => validateAuthorFeeShard_iff)
    (fun _ _ _ _ _ h => (validateAuthorFeeShard_ok h).2.2) σ

/-- What a sweep leaves in a listed initialized shard, when no shard was below the minimum. -/
theorem SweepLaws.minimum {run : List (AccountInfo × I) → Handler Unit} {w : AccountInfo}
    {P : Pubkey → I → Prop} (h : SweepLaws R σ run w r P) {l : List (AccountInfo × I)}
    (hl : Unlisted w l) (hrun : run l σ = .ok ((), σ'))
    (hfund : ∀ k i, ¬ σ.Free k → P k i → r ≤ σ.lamports k) :
    ∀ x ∈ l, ¬ σ.Free x.1.key → σ'.lamports x.1.key = r := by
  intro x hx hf
  rw [h.drains l σ' hl hrun x hx hf]
  by_cases hP : P x.1.key x.2
  · exact Nat.min_eq_right (hfund _ _ hf hP)
  · exact absurd hrun (h.rejects l x hx hf (.inr hP) σ')

/-- **Sweeps move exactly the distinct excess.** From every state both sweeps obey the laws, pay the
    treasury of the settings and the signing author, and in a state reached at the same rent every
    listed initialized shard is left with exactly the minimum. -/
theorem sweeps_exact (σ : Ledger) (head w : AccountInfo) :
    SweepLaws R σ (sweepTreasury R sv head w) w (sv.rent 0) (TreasuryShardAt R) ∧
      SweepLaws R σ (sweepAuthorFees R sv head w) w (sv.rent 0) (AuthorShardAt R head.key) ∧
      (∀ l σ', sweepTreasury R sv head w l σ = .ok ((), σ') →
        ∃ x, R.HasAddress .settings head.key ∧ σ.cell R head.key = .holds (.settings x) ∧
          w.key = x.treasury) ∧
      (∀ l σ', sweepAuthorFees R sv head w l σ = .ok ((), σ') →
        ∃ x, σ.cell R head.key = .holds (.thread x) ∧ w.key = x.author ∧ w.isSigner = true) ∧
      ∀ K, R.CollisionFree K → (program R).Reach (Steady sv.minimumBalance K) σ →
        (∀ l σ', Unlisted w l → sweepTreasury R sv head w l σ = .ok ((), σ') →
          ∀ x ∈ l, ¬ σ.Free x.1.key → σ'.lamports x.1.key = sv.rent 0) ∧
        ∀ l σ', Unlisted w l → sweepAuthorFees R sv head w l σ = .ok ((), σ') →
          ∀ x ∈ l, ¬ σ.Free x.1.key → σ'.lamports x.1.key = sv.rent 0 := by
  have htreasury : SweepLaws R σ (sweepTreasury R sv head w) w (sv.rent 0) (TreasuryShardAt R) :=
    treasurySweep_laws head w σ
  have hauthor : SweepLaws R σ (sweepAuthorFees R sv head w) w (sv.rent 0)
      (AuthorShardAt R head.key) := authorSweep_laws head w σ
  refine ⟨htreasury, hauthor, fun l σ' h => ?_, fun l σ' h => ?_, fun K hK hr => ⟨?_, ?_⟩⟩
  · obtain ⟨⟨x, hload, hw, -⟩, -⟩ := sweepTreasury_iff.mp h
    obtain ⟨hx, htag, haddr, -⟩ := loadSettings_ok hload
    exact ⟨x, haddr, hx.cell htag, hw⟩
  · obtain ⟨⟨x, hload, hw, hsig, -⟩, -⟩ := sweepAuthorFees_iff.mp h
    obtain ⟨hx, htag, -⟩ := loadThread_ok hload
    exact ⟨x, hx.cell htag, hw, hsig⟩
  · intro l σ' hl h
    refine htreasury.minimum hl h fun k i hf hP => ?_
    have hopen := reach_opened hK hr (p := .treasuryShard i) hP.1 hP.2 (by simp [Pda.thread?]) rfl
    rwa [Ledger.opened_of_not_free hf] at hopen
  · intro l σ' hl h
    obtain ⟨⟨x, hload, -⟩, -⟩ := sweepAuthorFees_iff.mp h
    obtain ⟨hx, htag, -⟩ := loadThread_ok hload
    refine hauthor.minimum hl h fun k i hf hP => ?_
    have hopen := reach_opened hK hr (p := .authorFee head.key i) hP.1 hP.2 (by
      rintro t ⟨⟩
      exact ⟨x, hx.cell htag⟩) rfl
    rwa [Ledger.opened_of_not_free hf] at hopen

/-- The treasury shard of the channel in use, at a rent that has risen above what it holds. -/
theorem Local.sweep_risen : ∃ σ',
    sweepTreasury localnet risenRent (passed (addressOf .settings)) (passed alice)
        [(passed (addressOf (.treasuryShard 0)), 0)]
        (afterCalls localnet inUse genesis) = .ok ((), σ') ∧
      σ'.lamports (addressOf (.treasuryShard 0)) ≠ risenRent.rent 0 := by
  obtain ⟨⟨⟨⟩, σ'⟩, hrun, hshort⟩ := exists_ok_of_map
    (p := fun r => decide (r.2.lamports (addressOf (.treasuryShard 0)) ≠ risenRent.rent 0))
    (show (sweepTreasury localnet risenRent (passed (addressOf .settings)) (passed alice)
      [(passed (addressOf (.treasuryShard 0)), 0)]
      (afterCalls localnet inUse genesis)).toOption.map _ = some true by decide +kernel)
  exact ⟨σ', hrun, of_decide_eq_true hshort⟩

/-- **A shard may hold less than the minimum**, where the rent has risen since it was opened: a
    sweep leaves it as it is, and not at the minimum. -/
theorem sweeps_exact_risen : ¬ ∀ (R : Runtime) (K : Set Pubkey) (sv : Sysvars) (σ σ' : Ledger)
    (head w : AccountInfo) (l : List (AccountInfo × UInt16)),
    R.CollisionFree K → (program R).Reach (Within K) σ → Unlisted w l →
    sweepTreasury R sv head w l σ = .ok ((), σ') →
      ∀ x ∈ l, ¬ σ.Free x.1.key → σ'.lamports x.1.key = sv.rent 0 := by
  intro hclaim
  obtain ⟨σ', hrun, hshort⟩ := Local.sweep_risen
  refine hshort (hclaim localnet {k | Plain k} _ _ _ _ _ _ localnet_collisionFree Local.inUse_reach
    ?_ hrun _ List.mem_cons_self (by decide +kernel))
  intro x hx
  rw [List.mem_singleton.mp hx]
  decide +kernel

/-- The treasury shard of the channel in use, listed twice, is swept down to the minimum. -/
theorem sweeps_exact_twice : ∃ σ',
    sweepTreasury localnet Local.sysvars (Local.passed (Local.addressOf .settings))
        (Local.passed Local.alice) [(Local.passed (Local.addressOf (.treasuryShard 0)), 0),
          (Local.passed (Local.addressOf (.treasuryShard 0)), 0)]
        (afterCalls localnet Local.inUse Local.genesis) = .ok ((), σ') ∧
      σ'.lamports (Local.addressOf (.treasuryShard 0)) = 100 := by
  obtain ⟨⟨⟨⟩, σ'⟩, hrun⟩ := exists_ok_of_isSome (show
    (sweepTreasury localnet Local.sysvars (Local.passed (Local.addressOf .settings))
      (Local.passed Local.alice) [(Local.passed (Local.addressOf (.treasuryShard 0)), 0),
        (Local.passed (Local.addressOf (.treasuryShard 0)), 0)]
      (afterCalls localnet Local.inUse Local.genesis)).toOption.isSome by decide +kernel)
  have hne : Local.addressOf (.treasuryShard 0) ≠ Local.alice := by decide +kernel
  obtain ⟨-, -, -, -, hmin⟩ := sweeps_exact (R := localnet)
    (afterCalls localnet Local.inUse Local.genesis) (Local.passed (Local.addressOf .settings))
    (Local.passed Local.alice)
  refine ⟨σ', hrun, (hmin _ localnet_collisionFree Local.inUse_reach_steady).1 _ σ' ?_ hrun _
    List.mem_cons_self (by decide +kernel)⟩
  intro x hx
  rcases List.mem_cons.mp hx with rfl | hx
  · exact hne
  · rw [List.mem_singleton.mp hx]
    exact hne

end Txtcel
