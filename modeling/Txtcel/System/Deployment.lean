import Txtcel.System.Machine

/-!
# Executable runs, and a deployment to run them on

* `runCalls` executes a list of calls and stops at the first that fails; what it reaches is
  reachable (`path_of_runCalls`), so a concrete run is checked by evaluation.
* `localnet` is a deployment on a hash that can be computed with: it keeps the kind of the
  derivation, the first byte of each key and every other parameter, and pads them to an address.
  Over keys that differ in their first byte (`Plain`) it has no collisions, so the condition
  `CollisionFree` is one that hashes meet.
-/

namespace Txtcel

open Lib Borsh

/-! ## 1. Executable runs -/

/-- One call of the program. -/
structure Call where
  sv : Sysvars
  accounts : List AccountInfo
  ix : ProgramInstruction

def Call.event (c : Call) : Event := .call c.sv c.accounts c.ix

/-- The ledger after the calls, when all of them succeed. -/
def runCalls (R : Runtime) : List Call → Ledger → Option Ledger
  | [], σ => some σ
  | c :: cs, σ =>
    match processInstruction R c.sv c.accounts c.ix σ with
    | .ok (_, τ) => runCalls R cs τ
    | .error _ => none

/-- The ledger after the calls; where one fails, what they started from. -/
def afterCalls (R : Runtime) (calls : List Call) (σ : Ledger) : Ledger :=
  (runCalls R calls σ).getD σ

section Runs

variable {R : Runtime} {Ok : Ledger → Event → Ledger → Prop} {σ τ : Ledger} {calls : List Call}

/-- Longer runs, from the other end. -/
theorem path_cons {e : Event} {υ : Ledger} {tr : List (Ledger × Event × Ledger)}
    (hs : (program R).step σ e τ) (hok : Ok σ e τ) (h : (program R).Path Ok τ tr υ) :
    (program R).Path Ok σ ((σ, e, τ) :: tr) υ := by
  induction h with
  | nil => exact .snoc .nil hs hok
  | snoc _ hst hok' ih => exact .snoc ih hst hok'

/-- **An executed run is a run of the machine.** -/
theorem path_of_runCalls (hS : ∀ c ∈ calls, OwnKeys R c.accounts)
    (hok : ∀ c ∈ calls, ∀ σ τ, Ok σ c.event τ) (h : runCalls R calls σ = some τ) :
    ∃ tr, (program R).Path Ok σ tr τ ∧ tr.map (·.2.1) = calls.map Call.event := by
  induction calls generalizing σ with
  | nil =>
    cases h
    exact ⟨[], .nil, rfl⟩
  | cons c cs ih =>
    unfold runCalls at h
    cases hrun : processInstruction R c.sv c.accounts c.ix σ with
    | error e => rw [hrun] at h; cases h
    | ok r =>
      obtain ⟨⟨⟩, υ⟩ := r
      rw [hrun] at h
      obtain ⟨tr, hp, hlen⟩ := ih (fun c hc => hS c (List.mem_cons_of_mem _ hc))
        (fun c hc => hok c (List.mem_cons_of_mem _ hc)) h
      refine ⟨(σ, c.event, υ) :: tr,
        path_cons ⟨hS c List.mem_cons_self, hrun⟩ (hok c List.mem_cons_self _ _) hp, ?_⟩
      rw [List.map_cons, List.map_cons, hlen]

theorem path_afterCalls (hS : ∀ c ∈ calls, OwnKeys R c.accounts)
    (hok : ∀ c ∈ calls, ∀ σ τ, Ok σ c.event τ) (h : (runCalls R calls σ).isSome) :
    ∃ tr, (program R).Path Ok σ tr (afterCalls R calls σ) ∧
      tr.map (·.2.1) = calls.map Call.event := by
  obtain ⟨τ, hτ⟩ := Option.isSome_iff_exists.mp h
  rw [afterCalls, hτ]
  exact path_of_runCalls hS hok hτ

/-- An execution that ended in no error succeeded. -/
theorem exists_ok_of_isSome {ε α : Type} {x : Except ε α} (h : x.toOption.isSome) :
    ∃ a, x = .ok a := by
  cases x with
  | error e => cases h
  | ok a => exact ⟨a, rfl⟩

/-- ... and its result passes a test. -/
theorem exists_ok_of_map {ε α : Type} {x : Except ε α} {p : α → Bool}
    (h : x.toOption.map p = some true) : ∃ a, x = .ok a ∧ p a = true := by
  cases x with
  | error e => cases h
  | ok a => exact ⟨a, rfl, Option.some.inj h⟩

/-- One more call is a step from where the calls led. -/
theorem step_afterCalls {c : Call} (hS : OwnKeys R c.accounts)
    (h : (runCalls R [c] (afterCalls R calls σ)).isSome) :
    (program R).step (afterCalls R calls σ) c.event (afterCalls R [c] (afterCalls R calls σ)) := by
  refine ⟨hS, ?_⟩
  generalize afterCalls R calls σ = τ at h ⊢
  unfold afterCalls
  unfold runCalls at h ⊢
  cases hrun : processInstruction R c.sv c.accounts c.ix τ with
  | error e => rw [hrun] at h; cases h
  | ok r =>
    obtain ⟨⟨⟩, υ⟩ := r
    rfl

end Runs

/-! ## 2. A hash to compute with -/

/-- An address that starts with the given bytes. -/
def padKey (bs : Bytes) : Pubkey := ⟨(bs ++ List.replicate 32 0).take 32, by simp⟩

theorem padKey_inj {a b : Bytes} (hlen : a.length = b.length) (ha : a.length ≤ 32)
    (h : padKey a = padKey b) : a = b := by
  have h' : (a ++ List.replicate 32 0).take 32 = (b ++ List.replicate 32 0).take 32 :=
    congrArg Pubkey.bytes h
  have hpre := congrArg (List.take a.length) h'
  rw [List.take_take, List.take_take, Nat.min_eq_left ha, List.take_left,
    hlen, List.take_left] at hpre
  exact hpre

theorem padKey_head {a b : UInt8} {as bs : Bytes} (h : padKey (a :: as) = padKey (b :: bs)) :
    a = b := by
  have h' := congrArg (fun k => k.bytes.headD 0) h
  simpa [padKey] using h'

/-- What is kept of a seed string: of each key its first byte, and everything that is no key. -/
def digest (m : Bytes) : Bytes :=
  match Pda.kindOf m with
  | 0 => m.drop 8
  | 1 => m.getD 5 0 :: m.drop 37
  | 2 => m.getD 7 0 :: m.drop 39
  | 3 => m.getD 6 0 :: m.drop 38
  | 4 => m.getD 3 0 :: m.getD 35 0 :: m.drop 67
  | 5 => m.getD 5 0 :: m.drop 37
  | 6 => m.drop 14
  | 7 => m.getD 10 0 :: m.drop 42
  | 8 => m.getD 7 0 :: m.drop 39
  | _ => m.getD 14 0 :: m.drop 46

/-- The kind, offset so that no wallet below has such an address, the first byte of the program id
    and the digest. -/
def localHash (bs : Bytes) : Pubkey :=
  let m := bs.take (bs.length - 53)
  padKey (UInt8.ofNat (Pda.kindOf m + 100) :: bs.getD (bs.length - 53) 0 :: digest m)

/-- A deployment on this hash. The points of the curve are the keys whose first byte is below 100,
    which no hash is. -/
def localnet : Runtime where
  programId := padKey [7]
  programId_ne := by decide
  hash := localHash
  onCurve k := decide (k.bytes.headD 0 < 100)

/-- A key that is told by its first byte. -/
def Plain (k : Pubkey) : Prop := ∃ b, k = padKey [b]

section Hash

variable {p q : Pda} {b c : UInt8}

/-- What the hash makes of a string with the program id and the marker behind it. -/
theorem localHash_append (m : Bytes) :
    localHash (m ++ localnet.programId.bytes ++ pdaMarker) =
      padKey (UInt8.ofNat (Pda.kindOf m + 100) :: 7 :: digest m) := by
  have hsuf : (localnet.programId.bytes ++ pdaMarker).length = 53 := by decide
  have hbyte : (m ++ (localnet.programId.bytes ++ pdaMarker)).getD m.length 0 = 7 := by
    rw [List.getD_eq_getElem?_getD, List.getElem?_append_right (le_refl _), Nat.sub_self]
    rfl
  simp only [localHash, List.append_assoc]
  rw [List.length_append, hsuf, Nat.add_sub_cancel, List.take_left, hbyte]

theorem localHash_message :
    localHash (p.message b ++ localnet.programId.bytes ++ pdaMarker) =
      padKey (UInt8.ofNat (p.kind + 100) :: 7 :: digest (p.message b)) := by
  rw [localHash_append, Pda.kindOf_message]

theorem kindOf_le (m : Bytes) : Pda.kindOf m ≤ 9 := by
  unfold Pda.kindOf
  split <;> try omega
  split <;> omega

/-- No hash is a point of the curve. -/
theorem localHash_notOnCurve (bs : Bytes) : localnet.onCurve (localHash bs) = false := by
  have hle := kindOf_le (bs.take (bs.length - 53))
  show decide (UInt8.ofNat (Pda.kindOf (bs.take (bs.length - 53)) + 100) < 100) = false
  rw [decide_eq_false_iff_not, UInt8.lt_iff_toNat_lt, UInt8.toNat_ofNat']
  have h100 : (100 : UInt8).toNat = 100 := rfl
  omega

theorem kind_lt (p : Pda) : p.kind < 10 := by
  cases p <;> simp [Pda.kind]

/-- What is kept determines the string, over plain keys. -/
theorem message_of_digest (hp : ∀ k ∈ p.keys, Plain k) (hq : ∀ k ∈ q.keys, Plain k)
    (hk : p.kind = q.kind) (h : digest (p.message b) = digest (q.message c)) :
    p.message b = q.message c := by
  simp only [digest, Pda.kindOf_message, ← hk] at h
  cases p <;> cases q <;> try (exact absurd hk (by simp only [Pda.kind]; omega))
  case settings.settings =>
    have h' : [b] = [c] := h
    obtain rfl := List.head_eq_of_cons_eq h'
    rfl
  case alloc.alloc t n u m =>
    obtain ⟨x, rfl⟩ := hp t (by simp [Pda.keys])
    obtain ⟨y, rfl⟩ := hq u (by simp [Pda.keys])
    have h' : x :: (serialize n ++ [b]) = y :: (serialize m ++ [c]) := h
    obtain ⟨rfl, h1⟩ := List.cons.inj h'
    obtain ⟨rfl, h2⟩ := serialize_append_inj (a := n) (b := m) trivial trivial h1
    cases h2
    rfl
  case content.content t n i u m j =>
    obtain ⟨x, rfl⟩ := hp t (by simp [Pda.keys])
    obtain ⟨y, rfl⟩ := hq u (by simp [Pda.keys])
    have h' : x :: (serialize n ++ [i, b]) = y :: (serialize m ++ [j, c]) := h
    obtain ⟨rfl, h1⟩ := List.cons.inj h'
    obtain ⟨rfl, h2⟩ := serialize_append_inj (a := n) (b := m) trivial trivial h1
    cases h2
    rfl
  case access.access t u =>
    obtain ⟨x, rfl⟩ := hp t (by simp [Pda.keys])
    obtain ⟨y, rfl⟩ := hq u (by simp [Pda.keys])
    have h' : [x, b] = [y, c] := h
    cases h'
    rfl
  case entry.entry t v u w =>
    obtain ⟨x, rfl⟩ := hp t (by simp [Pda.keys])
    obtain ⟨x', rfl⟩ := hp v (by simp [Pda.keys])
    obtain ⟨y, rfl⟩ := hq u (by simp [Pda.keys])
    obtain ⟨y', rfl⟩ := hq w (by simp [Pda.keys])
    have h' : [x, x', b] = [y, y', c] := h
    cases h'
    rfl
  case likes.likes t n u m =>
    obtain ⟨x, rfl⟩ := hp t (by simp [Pda.keys])
    obtain ⟨y, rfl⟩ := hq u (by simp [Pda.keys])
    have h' : x :: (serialize n ++ [b]) = y :: (serialize m ++ [c]) := h
    obtain ⟨rfl, h1⟩ := List.cons.inj h'
    obtain ⟨rfl, h2⟩ := serialize_append_inj (a := n) (b := m) trivial trivial h1
    cases h2
    rfl
  case treasuryShard.treasuryShard i j =>
    have h' : serialize i ++ [b] = serialize j ++ [c] := h
    obtain ⟨rfl, h2⟩ := serialize_append_inj (a := i) (b := j) trivial trivial h'
    cases h2
    rfl
  case authorFee.authorFee t i u j =>
    obtain ⟨x, rfl⟩ := hp t (by simp [Pda.keys])
    obtain ⟨y, rfl⟩ := hq u (by simp [Pda.keys])
    have h' : [x, i, b] = [y, j, c] := h
    cases h'
    rfl
  case followRegistry.followRegistry t u =>
    obtain ⟨x, rfl⟩ := hp t (by simp [Pda.keys])
    obtain ⟨y, rfl⟩ := hq u (by simp [Pda.keys])
    have h' : [x, b] = [y, c] := h
    cases h'
    rfl
  case followerShard.followerShard t i u j =>
    obtain ⟨x, rfl⟩ := hp t (by simp [Pda.keys])
    obtain ⟨y, rfl⟩ := hq u (by simp [Pda.keys])
    have h' : [x, i, b] = [y, j, c] := h
    cases h'
    rfl

theorem digest_length (p : Pda) (b : UInt8) :
    (digest (p.message b)).length ≤ 8 ∧
      ∀ (q : Pda) (c : UInt8), p.kind = q.kind →
        (digest (p.message b)).length = (digest (q.message c)).length := by
  have hlen : ∀ (p : Pda) (b : UInt8), (digest (p.message b)).length =
      [1, 6, 7, 2, 3, 6, 3, 3, 2, 3].getD p.kind 0 := by
    intro p b
    simp only [digest, Pda.kindOf_message]
    cases p <;>
      simp [Pda.kind, Pda.message, Pda.seeds, Pubkey.size_eq, settingsSeed, allocSeed, contentSeed,
        accessSeed, aclSeed, likesSeed, treasuryShardSeed, authorFeeSeed, followsSeed,
        followerCountSeed]
  refine ⟨?_, fun q c hk => by rw [hlen, hlen, hk]⟩
  rw [hlen]
  cases p <;> simp [Pda.kind]

/-- **No collisions over plain keys.** -/
theorem localnet_collisionFree : localnet.CollisionFree {k | Plain k} := by
  intro p q hp hq b c h
  have h' : padKey (UInt8.ofNat (p.kind + 100) :: 7 :: digest (p.message b)) =
      padKey (UInt8.ofNat (q.kind + 100) :: 7 :: digest (q.message c)) := by
    rw [← localHash_message, ← localHash_message]
    exact h
  -- the first byte tells the kind, the kind tells how long the digest is
  have hkind : p.kind = q.kind := by
    have hhead := padKey_head h'
    have hp10 := kind_lt p
    have hq10 := kind_lt q
    have := congrArg UInt8.toNat hhead
    simp only [UInt8.toNat_ofNat'] at this
    omega
  obtain ⟨hle, hlen⟩ := digest_length p b
  have hlist := padKey_inj (by simp [hlen q c hkind]) (by simp; omega) h'
  have hmsg := message_of_digest hp hq hkind (List.cons.inj (List.cons.inj hlist).2).2
  rw [hmsg]

/-- How every address of the program starts. -/
theorem localnet_pda {k : Pubkey} (h : localnet.IsPda k) :
    ∃ n ≤ 9, ∃ bs, k = padKey (UInt8.ofNat (n + 100) :: 7 :: bs) := by
  obtain ⟨p, hp⟩ := h
  obtain ⟨b, hb⟩ := hp.hash_eq
  have hkind := kind_lt p
  have hk : padKey (UInt8.ofNat (p.kind + 100) :: 7 :: digest (p.message b)) = k := by
    rw [← localHash_message]
    exact hb
  exact ⟨p.kind, by omega, _, hk.symm⟩

theorem localnet_onCurve {x : UInt8} (hx : x < 100) : localnet.onCurve (padKey [x]) = true :=
  decide_eq_true hx

/-- No plain address below 100 is derived. -/
theorem localnet_notPda {x : UInt8} (hx : x < 100) : ¬ localnet.IsPda (padKey [x]) := by
  intro h
  have hcurve := localnet_onCurve hx
  rw [h.not_onCurve] at hcurve
  cases hcurve

end Hash

/-! ## 3. A short history -/

/-- A plain key below 100. -/
def isPlainKey (k : Pubkey) : Bool :=
  k == padKey [k.bytes.headD 0] && decide (k.bytes.headD 0 < 100)

theorem exists_of_isPlainKey {k : Pubkey} (h : isPlainKey k = true) : ∃ b < 100, k = padKey [b] := by
  simp only [isPlainKey, Bool.and_eq_true, beq_iff_eq, decide_eq_true_eq] at h
  exact ⟨_, h.2, h.1⟩

/-- Every signer of the call, and the wallet it names, is a plain key below 100. -/
def Call.isPlain (c : Call) : Bool :=
  (c.accounts.all fun a => !a.isSigner || isPlainKey a.key) && c.ix.wallet?.all isPlainKey

section Plain

variable {calls : List Call} {c : Call} {k : Pubkey}

theorem signers_of_plain (h : calls.all Call.isPlain = true) (hc : c ∈ calls)
    (hk : k ∈ signers c.accounts) : ∃ b < 100, k = padKey [b] := by
  obtain ⟨a, ha, hsig, rfl⟩ := hk
  have hall := (Bool.and_eq_true _ _ ▸ List.all_eq_true.mp h c hc).1
  have hone := List.all_eq_true.mp hall a ha
  rw [hsig, Bool.not_true, Bool.false_or] at hone
  exact exists_of_isPlainKey hone

theorem ownKeys_of_plain (h : calls.all Call.isPlain = true) :
    ∀ c ∈ calls, OwnKeys localnet c.accounts := by
  refine fun c hc => OwnKeys.of_onCurve fun k hk => ?_
  obtain ⟨b, hb, rfl⟩ := signers_of_plain h hc hk
  exact localnet_onCurve hb

theorem within_of_plain (h : calls.all Call.isPlain = true) :
    ∀ c ∈ calls, ∀ σ τ, Within {k | Plain k} σ c.event τ := by
  rintro c hc σ τ sv accounts ix he
  cases he
  refine ⟨fun k hk => ?_, fun w hw => ?_⟩
  · obtain ⟨b, -, rfl⟩ := signers_of_plain h hc hk
    exact ⟨b, rfl⟩
  · have hall := (Bool.and_eq_true _ _ ▸ List.all_eq_true.mp h c hc).2
    rw [hw] at hall
    obtain ⟨b, -, rfl⟩ := exists_of_isPlainKey hall
    exact ⟨b, rfl⟩

end Plain

namespace Local

def alice : Pubkey := padKey [1]
def bob : Pubkey := padKey [2]
def channel : Pubkey := padKey [3]

def addressOf (p : Pda) : Pubkey := ((p.derive localnet).map (·.1)).getD systemProgram

/-- No bump is passed over. -/
theorem hasAddress_addressOf (p : Pda) : localnet.HasAddress p (addressOf p) := by
  have hfirst : localnet.createProgramAddress (p.seeds ++ [[255]]) localnet.programId =
      some (localHash (p.message 255 ++ localnet.programId.bytes ++ pdaMarker)) :=
    if_neg (Bool.eq_false_iff.mp (localHash_notOnCurve _))
  have h : p.derive localnet =
      some (localHash (p.message 255 ++ localnet.programId.bytes ++ pdaMarker), 255) := by
    have hbumps : Runtime.bumps = 255 :: Runtime.bumps.tail := by decide +kernel
    rw [Pda.derive, Runtime.findProgramAddress, hbumps, List.findSome?_cons, hfirst]
    rfl
  refine ⟨255, ?_⟩
  unfold addressOf
  rw [h]
  rfl

def programdata : Pubkey :=
  ((localnet.findProgramAddress [localnet.programId.bytes] bpfLoaderUpgradeableId).map (·.1)).getD
    systemProgram

/-- Two funded wallets, and a loader account that names the first as upgrade authority. -/
def genesis : Ledger where
  lamports k := if k = alice ∨ k = bob then 1000000 else 0
  data k := if k = programdata then List.replicate 12 0 ++ [1] ++ alice.bytes else []
  owner k := if k = programdata then bpfLoaderUpgradeableId else systemProgram

def sysvars : Sysvars where
  minimumBalance n := UInt64.ofNat (100 + n)
  unixTimestamp := 0

/-- A rent above what the shards of the channel in use hold. -/
def risenRent : Sysvars where
  minimumBalance n := UInt64.ofNat (1000 + n)
  unixTimestamp := 0

def signing (k : Pubkey) : AccountInfo := ⟨k, true, true⟩
def passed (k : Pubkey) : AccountInfo := ⟨k, false, true⟩

/-- The shard accounts and the System Program, as most instructions take them. -/
def shards : List AccountInfo :=
  [passed (addressOf (.treasuryShard 0)), passed (addressOf (.authorFee channel 0)),
    passed systemProgram]

def openPlatform : Call where
  sv := sysvars
  accounts := [signing alice, passed (addressOf .settings), passed programdata,
    passed systemProgram]
  ix := .initSettings alice

/-- A channel of `alice`, with a message fee of 50. -/
def openChannel : Call where
  sv := sysvars
  accounts := [signing alice, signing channel, passed (addressOf (.alloc channel 0)),
    passed (addressOf .settings), passed (addressOf (.treasuryShard 0)), passed systemProgram]
  ix := .createRootAlloc 50 0 [72, 105]

def gateChannel : Call where
  sv := sysvars
  accounts := [signing alice, passed channel, passed (addressOf (.access channel)),
    passed (addressOf (.treasuryShard 0)), passed systemProgram]
  ix := .initThreadAccess true 0

def admitBob : Call where
  sv := sysvars
  accounts := [signing alice, passed (addressOf (.access channel)),
    passed (addressOf (.entry channel bob)), passed systemProgram]
  ix := .addToWhitelist bob

/-- `bob` posts into the first slot of the channel. -/
def postBob : Call where
  sv := sysvars
  accounts := [signing bob, passed channel, passed (addressOf .settings)] ++ shards ++
    [passed (addressOf (.content channel 0 0)), passed (addressOf (.access channel)),
      passed (addressOf (.entry channel bob))]
  ix := .fillSlot 0 [104, 105] [⟨0, 0⟩] 0 0 0 0 1000

/-- `alice` likes it. -/
def likePost : Call where
  sv := sysvars
  accounts := [signing alice, passed (addressOf (.likes channel 0)),
    passed (addressOf (.content channel 0 0)), passed channel, passed (addressOf .settings)] ++ shards
  ix := .likeContent 0 0 0 0 1000

/-- `bob` closes it. -/
def closePost : Call where
  sv := sysvars
  accounts := [signing bob, passed (addressOf (.content channel 0 0)),
    passed (addressOf (.likes channel 0))]
  ix := .closeAccount

/-- A second page. -/
def growChannel : Call where
  sv := sysvars
  accounts := [signing alice, passed (addressOf (.alloc channel 0)),
    passed (addressOf (.alloc channel 1)), passed channel, passed systemProgram]
  ix := .prepareAlloc 0

/-- A gated channel with one member. -/
def history : List Call := [openPlatform, openChannel, gateChannel, admitBob]

/-- The channel in use: a message, a like, a second page. -/
def inUse : List Call := history ++ [postBob, likePost, growChannel]

theorem genesis_init : (program localnet).init genesis where
  unowned k := by
    show (if k = programdata then bpfLoaderUpgradeableId else systemProgram) ≠ padKey [7]
    split <;> decide
  unclaimed k hk := by
    have hne : k ≠ programdata := by
      obtain ⟨n, -, bs, rfl⟩ := localnet_pda hk
      intro h
      have h1 : (7 : UInt8) = programdata.bytes.getD 1 0 :=
        congrArg (fun k => k.bytes.getD 1 0) h
      exact absurd h1 (by decide +kernel)
    exact ⟨if_neg hne, if_neg hne⟩

/-- The local calls run at one rent and with plain keys. -/
theorem inUse_steady : ∀ c ∈ inUse, ∀ σ τ,
    Steady sysvars.minimumBalance {k | Plain k} σ c.event τ := by
  intro c hc σ τ
  refine ⟨fun sv accounts ix he => ?_, within_of_plain (by decide +kernel) c hc σ τ⟩
  have hsv : ∀ c ∈ inUse, c.sv = sysvars := by
    simp [inUse, history, openPlatform, openChannel, gateChannel, admitBob, postBob, likePost,
      growChannel]
  cases he
  rw [hsv c hc]

theorem history_steady : ∀ c ∈ history, ∀ σ τ,
    Steady sysvars.minimumBalance {k | Plain k} σ c.event τ :=
  fun c hc => inUse_steady c (List.mem_append_left _ hc)

theorem history_path {Ok : Ledger → Event → Ledger → Prop}
    (hok : ∀ c ∈ history, ∀ σ τ, Ok σ c.event τ) :
    ∃ tr, (program localnet).Path Ok genesis tr (afterCalls localnet history genesis) ∧
      tr.map (·.2.1) = history.map Call.event :=
  path_afterCalls (ownKeys_of_plain (by decide +kernel)) hok (by decide +kernel)

theorem history_reach {Ok : Ledger → Event → Ledger → Prop}
    (hok : ∀ c ∈ history, ∀ σ τ, Ok σ c.event τ) :
    (program localnet).Reach Ok (afterCalls localnet history genesis) := by
  obtain ⟨tr, hp, -⟩ := history_path hok
  exact hp.reach (.init genesis_init)

theorem inUse_path {Ok : Ledger → Event → Ledger → Prop}
    (hok : ∀ c ∈ inUse, ∀ σ τ, Ok σ c.event τ) :
    ∃ tr, (program localnet).Path Ok genesis tr (afterCalls localnet inUse genesis) ∧
      tr.map (·.2.1) = inUse.map Call.event :=
  path_afterCalls (ownKeys_of_plain (by decide +kernel)) hok (by decide +kernel)

/-- The store of the channel in use is reached, at one rent and with plain signers only. -/
theorem inUse_reach_steady : (program localnet).Reach (Steady sysvars.minimumBalance {k | Plain k})
    (afterCalls localnet inUse genesis) := by
  obtain ⟨tr, hp, -⟩ := inUse_path inUse_steady
  exact hp.reach (.init genesis_init)

theorem inUse_reach : (program localnet).Reach (Within {k | Plain k})
    (afterCalls localnet inUse genesis) :=
  inUse_reach_steady.mono fun _ _ _ hok => hok.2

/-- The close is a step from there. -/
theorem closePost_step : (program localnet).step (afterCalls localnet inUse genesis)
    closePost.event (afterCalls localnet [closePost] (afterCalls localnet inUse genesis)) :=
  step_afterCalls (ownKeys_of_plain (show [closePost].all Call.isPlain = true by decide +kernel) _
    (List.mem_singleton_self _)) (by decide +kernel)

/-- The post is a step from the gated channel. -/
theorem postBob_step : (program localnet).step (afterCalls localnet history genesis) postBob.event
    (afterCalls localnet [postBob] (afterCalls localnet history genesis)) :=
  step_afterCalls (ownKeys_of_plain (show [postBob].all Call.isPlain = true by decide +kernel) _
    (List.mem_singleton_self _)) (by decide +kernel)

end Local

end Txtcel
