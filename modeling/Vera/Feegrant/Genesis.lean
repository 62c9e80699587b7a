import Vera.Lib.Restore
import Vera.Feegrant.FirstGrant

/-!
# The genesis of the fee grants

`InitGenesis` and `ExportGenesis` (`x/feegrant/keeper/keeper.go`, and `x/feegrant/module/module.go` for the genesis file).
The import gives every grant again, with the checks of a new grant: one of them refuses a grant that has expired. Expired grants
are stored until they are pruned, a few hundred in a block, and those whose entry in the queue was lost for good.

A genesis file has the allowances packed. `GenesisState.UnpackInterfaces` (`x/feegrant/genesis.go`) unpacks those of the grants
between accounts only, so a file with a grant to a DID is not imported.
-/

namespace Vera.Feegrant

open Eff KVStore List Outcome
open Bytes (str)

variable {Γ : Env}

/-- A grant in a genesis state, and whether its allowance is unpacked. -/
structure GenesisGrant (Γ : Env) where
  grant : Grant Γ
  unpacked : Bool

structure GenesisState (Γ : Env) where
  allowances : List (GenesisGrant Γ)
  didAllowances : List (GenesisGrant Γ)

def GenesisGrant.getGrant (f : GenesisGrant Γ) : Outcome Error (Allowance Γ) :=
  if f.unpacked then .ok f.grant.allowance else .err errNoAllowance

/-- The grants as they are read from the store, which unpacks them. -/
def State.genesisState (s : State Γ) : GenesisState Γ :=
  ⟨s.book.grants.entries.map fun e => ⟨e.2, true⟩, s.didBook.grants.entries.map fun e => ⟨e.2, true⟩⟩

def exportGenesis : M Γ (GenesisState Γ) := Eff.query fun s => .ok s.genesisState

def stringToBytes (text : Bytes) : M Γ KeyPart := Eff.lift (Outcome.ofExcept (fun e => ⟨.plain, e⟩) (Γ.stringToBytes text))

def initAllowance (ctx : Ctx) (f : GenesisGrant Γ) : M Γ Unit := do
  let granter ← stringToBytes f.grant.granter
  let grantee ← stringToBytes f.grant.grantee
  let grant ← Eff.lift f.getGrant
  grantAllowance ctx granter grantee grant

def initDIDAllowance (ctx : Ctx) (f : GenesisGrant Γ) : M Γ Unit := do
  let granter ← stringToBytes f.grant.granter
  let didGrant ← Eff.lift f.getGrant
  match KeyPart.ofBytes f.grant.grantee with
  | some granteeDID => grantDIDAllowance ctx granter granteeDID didGrant
  | none => Eff.crash "address length should be max 255 bytes"

def initGenesis (ctx : Ctx) (data : GenesisState Γ) : M Γ Unit := do
  Eff.forEach data.allowances (initAllowance ctx)
  Eff.forEach data.didAllowances (initDIDAllowance ctx)

/-- What is read from a file to which a genesis state was written: no allowance is unpacked yet. -/
def GenesisState.decoded (data : GenesisState Γ) : GenesisState Γ where
  allowances := data.allowances.map fun f => { f with unpacked := false }
  didAllowances := data.didAllowances.map fun f => { f with unpacked := false }

/-- `GenesisState.UnpackInterfaces`, which the codec calls after it has read a genesis state. -/
def GenesisState.unpackInterfaces (data : GenesisState Γ) : GenesisState Γ :=
  { data with allowances := data.allowances.map fun f => { f with unpacked := true } }

/-- `InitGenesis` of the module, with the file its `ExportGenesis` wrote. -/
def initGenesisFile (ctx : Ctx) (data : GenesisState Γ) : M Γ Unit := (initGenesis ctx data.decoded.unpackInterfaces).must

/-! ## What is stored

A grant between accounts is stored under the addresses it names, and its grantee has an account. -/

/-- What is asked of the accounts: an account that is created is there, and accounts stay. -/
structure AccountLaws (Γ : Env) : Prop where
  created : ∀ accounts address, Γ.hasAccount (Γ.newAccount accounts address) address = true
  kept : ∀ accounts address address', Γ.hasAccount accounts address' = true →
    Γ.hasAccount (Γ.newAccount accounts address) address' = true

/-- A grant between accounts as it is stored. -/
def grantOf (granter grantee : KeyPart) (a : Allowance Γ) : Grant Γ :=
  ⟨Γ.accAddressString granter.bytes, Γ.accAddressString grantee.bytes, a⟩

def GrantKept (accounts : Γ.σ) (key : Bytes) (grant : Grant Γ) : Prop :=
  ∃ granter grantee a, key = feeAllowanceKey granter grantee ∧ grant = grantOf granter grantee a ∧ a.marshalable = true ∧
    Γ.hasAccount accounts grantee.bytes = true

/-- All grants between accounts are under their keys. -/
def State.Kept (s : State Γ) : Prop := s.book.grants.All (GrantKept s.accounts)

theorem kept_init (accounts : Γ.σ) : (State.init accounts : State Γ).Kept := KVStore.All.empty

variable {s t : State Γ} {granter grantee : KeyPart} {a : Allowance Γ} {u : Unit} {exp : Option Time}
  {f : GenesisGrant Γ}

theorem State.Kept.congr (hs : s.Kept) (ha : t.accounts = s.accounts) (hg : t.book.grants = s.book.grants) : t.Kept := by
  unfold State.Kept
  rw [ha, hg]
  exact hs

theorem State.Kept.grant (hs : s.Kept) {grant : Grant Γ} (h : s.grant granter grantee = some grant) :
    grant = grantOf granter grantee grant.allowance ∧ grant.allowance.marshalable = true ∧
      Γ.hasAccount s.accounts grantee.bytes = true := by
  obtain ⟨granter', grantee', a, hke, rfl, hm, ha⟩ := hs _ grant h
  obtain ⟨rfl, rfl⟩ := feeAllowanceKey_inj hke
  exact ⟨rfl, hm, ha⟩

theorem newGrant_account {grant : Grant Γ} (h : newGrant granter (Γ.accAddressString grantee.bytes) a = .ok grant) :
    a.marshalable = true ∧ grant = grantOf granter grantee a := by
  unfold newGrant at h
  split at h
  · rename_i hm
    exact ⟨hm, (Outcome.ok.inj h).symm⟩
  · cases h

theorem updateAllowance_kept (granter grantee : KeyPart) (a : Allowance Γ) :
    (updateAllowance granter grantee a).Keeps State.Kept := by
  intro s hs
  refine Eff.KeepsAt.query_bind (fun old hold => ?_) hs
  refine Eff.KeepsAt.lift_bind fun grant hg => ?_
  obtain ⟨hm, rfl⟩ := newGrant_account hg
  -- the grantee of the grant that is replaced has an account
  have ha := (hs.grant (ofOption_eq_ok.1 hold)).2.2
  refine Eff.KeepsAt.bind ?_ fun _ t _ => Eff.Keeps.modify (fun _ ht => ht.congr rfl rfl) t
  exact fun _ _ => KVStore.All.set hs ⟨granter, grantee, a, rfl, rfl, hm, ha⟩

theorem revokeAllowance_kept (granter grantee : KeyPart) : (revokeAllowance granter grantee : M Γ Unit).Keeps State.Kept := by
  refine .bind (.bind (.query _) fun _ => .pure _) fun allowance => ?_
  refine .bind (.modify fun s hs => KVStore.All.delete hs _) fun _ => .bind (.lift _) fun exp => ?_
  have hem : (emit (.revokeFeeGrant (Γ.accAddressString granter.bytes) (Γ.accAddressString grantee.bytes)) : M Γ Unit).Keeps
      State.Kept := .modify fun _ hs => hs.congr rfl rfl
  cases exp with
  | none => exact hem
  | some exp => exact .bind (.modify fun _ hs => hs.congr rfl rfl) fun _ => hem

theorem useGrantedFees_kept (ctx : Ctx) (granter grantee : KeyPart) (fee : Γ.Coins) (msgs : List Bytes) :
    (useGrantedFees ctx granter grantee fee msgs).Keeps State.Kept := by
  refine .bind (.bind (.query _) fun _ => .pure _) fun allowance => .ite (fun _ => ?_) fun _ => ?_
  · refine .bind (revokeAllowance_kept granter grantee).attempt fun _ => ?_
    split
    · exact .fail _
    · exact .modify fun _ hs => hs.congr rfl rfl
  · split
    · exact .fail _
    · exact .bind (.modify fun _ hs => hs.congr rfl rfl) fun _ => updateAllowance_kept granter grantee _

theorem createGrantee_accounts (laws : AccountLaws Γ) (h : (createGrantee grantee).Succeeds s u t) :
    t.book = s.book ∧ Γ.hasAccount t.accounts grantee.bytes = true ∧
      ∀ address, Γ.hasAccount s.accounts address = true → Γ.hasAccount t.accounts address = true := by
  unfold createGrantee at h
  rw [read_bind_ok] at h
  split at h
  · rename_i ha
    obtain rfl := (pure_ok.1 h).2
    exact ⟨rfl, ha, fun _ h => h⟩
  · obtain rfl := modify_ok.1 (require_bind_ok.1 h).2
    exact ⟨rfl, laws.created _ _, fun address => laws.kept _ _ address⟩

/-- A new grant between accounts: its time is not past, its grantee has an account, and it is stored under its key. -/
theorem grantAllowance_accounts (laws : AccountLaws Γ) {ctx : Ctx}
    (h : (grantAllowance ctx granter grantee a).Succeeds s u t) :
    (∃ exp, a.expiresAt = .ok exp ∧ exp.any (·.before ctx.blockTime) = false) ∧ a.marshalable = true ∧
      t.book.grants = s.book.grants.set (feeAllowanceKey granter grantee) (grantOf granter grantee a) ∧
      Γ.hasAccount t.accounts grantee.bytes = true ∧
      ∀ address, Γ.hasAccount s.accounts address = true → Γ.hasAccount t.accounts address = true := by
  unfold grantAllowance requireNotPast at h
  rw [read_bind_ok, require_bind_ok] at h
  obtain ⟨_, s₁, hcr, h⟩ := bind_ok.1 h.2
  rw [lift_bind_ok] at h
  obtain ⟨exp, hexp, h⟩ := h
  obtain ⟨hp, h⟩ := require_bind_ok.1 h
  obtain ⟨hb, hac, hke⟩ := createGrantee_accounts laws hcr
  have hs : ∀ s₂ : State Γ, s₂.accounts = s₁.accounts → s₂.book.grants = s₁.book.grants → (do
      let grant ← Eff.lift (newGrant granter (Γ.accAddressString grantee.bytes) a)
      setGrant granter grantee grant
      emit (.setFeeGrant grant.granter grant.grantee) : M Γ Unit).Succeeds s₂ u t →
      a.marshalable = true ∧ t.accounts = s₁.accounts ∧
        t.book.grants = s₁.book.grants.set (feeAllowanceKey granter grantee) (grantOf granter grantee a) := by
    intro s₂ ha hg h
    rw [lift_bind_ok] at h
    obtain ⟨grant, hgr, h⟩ := h
    obtain ⟨hm, rfl⟩ := newGrant_account hgr
    unfold setGrant modifyBook emit at h
    rw [modify_bind_ok, modify_ok] at h
    rw [h]
    exact ⟨hm, ha, congrArg (KVStore.set · (feeAllowanceKey granter grantee) (grantOf granter grantee a)) hg⟩
  have hd : a.marshalable = true ∧ t.accounts = s₁.accounts ∧
      t.book.grants = s₁.book.grants.set (feeAllowanceKey granter grantee) (grantOf granter grantee a) := by
    cases exp with
    | none => exact hs s₁ rfl rfl h
    | some exp =>
      obtain ⟨_, s₂, hqu, hrest⟩ := bind_ok.1 h
      obtain rfl := modify_ok.1 hqu
      refine hs _ ?_ ?_ hrest
      · rfl
      · rfl
  obtain ⟨hm, ha, hg⟩ := hd
  rw [ha, hg, hb]
  exact ⟨⟨exp, hexp, hp⟩, hm, rfl, hac, hke⟩

theorem grantAllowance_kept (laws : AccountLaws Γ) {ctx : Ctx}
    (hs : s.Kept) (h : (grantAllowance ctx granter grantee a).Succeeds s u t) : t.Kept := by
  obtain ⟨-, hm, hgr, ha, hke⟩ := grantAllowance_accounts laws h
  unfold State.Kept
  rw [hgr]
  refine KVStore.All.set (fun key grant hgra => ?_) ⟨granter, grantee, a, rfl, rfl, hm, ha⟩
  obtain ⟨granter', grantee', a', hkey, hg, hm', ha'⟩ := hs key grant hgra
  exact ⟨granter', grantee', a', hkey, hg, hm', hke _ ha'⟩

theorem step_kept (laws : AccountLaws Γ) (hs : s.Kept) (c : Step Γ) : (step s c).Kept := by
  cases c with
  | grantAllowance ctx granter grantee a =>
    exact commit_of_ok (P := State.Kept) hs fun u t h => grantAllowance_kept laws hs h
  | updateAllowance ctx granter grantee a => exact (updateAllowance_kept granter grantee a).commit hs
  | useGrantedFees ctx granter grantee fee msgs => exact (useGrantedFees_kept ctx granter grantee fee msgs).commit hs
  | revokeAllowance ctx granter grantee => exact (revokeAllowance_kept granter grantee).commit hs
  | removeExpiredAllowances ctx limit =>
    refine commit_of_ok (P := State.Kept) hs fun u t h => ?_
    change (removeExpiredAllowances ctx limit).Succeeds s u t at h
    have hsh := (expireAll_eq_ok (removeExpiredAllowances_ok h)).1
    have ha : t.accounts = s.accounts := by
      unfold removeExpiredAllowances modifyBook at h
      rw [read_bind_ok, lift_bind_ok] at h
      obtain ⟨b, -, hse⟩ := h
      rw [modify_ok.1 hse]
    intro key grant hg
    rw [ha]
    exact hs key grant (hsh.grants key grant hg)

/-- In every state that is reached, the grants of both kinds are as they were given. -/
theorem anyRun_kept (laws : AccountLaws Γ) (times : TimeLaws Γ) (accounts : Γ.σ) (calls : List (Step Γ ⊕ DIDCall Γ)) :
    (Run.run anyStep (State.init accounts) calls).Kept ∧ (Run.run anyStep (State.init accounts) calls).didBook.Agrees := by
  refine Run.run_invariant anyStep (I := fun s : State Γ => s.Kept ∧ s.didBook.Agrees) (fun s c hs => ?_)
    ⟨kept_init accounts, Book.Agrees.init⟩ calls
  cases c with
  | inl c =>
    rw [anyStep, step_didBook]
    exact ⟨step_kept laws hs.1 c, hs.2⟩
  | inr c =>
    obtain ⟨ha, ho⟩ := didStep_agrees times hs.2 c
    obtain ⟨hac, hb⟩ := Prod.mk.inj ho
    exact ⟨hs.1.congr hac (congrArg Book.grants hb), ha⟩

/-! ## Round trips -/

/-- Whether a grant with an allowance may be given at a time: it can be read when it expires, and that is not before. -/
def Allowance.currentAt (a : Allowance Γ) (blockTime : Time) : Bool :=
  match a.expiresAt with
  | .ok exp => !exp.any (·.before blockTime)
  | _ => false

theorem Allowance.currentAt_iff {blockTime : Time} :
    a.currentAt blockTime = true ↔ ∃ exp, a.expiresAt = .ok exp ∧ exp.any (·.before blockTime) = false := by
  unfold Allowance.currentAt
  cases h : a.expiresAt with
  | ok exp => simp
  | err e => simp
  | panic m => simp

/-- No stored grant has expired by a time. -/
structure State.Current (s : State Γ) (blockTime : Time) : Prop where
  grants : ∀ e ∈ s.book.grants.entries, e.2.allowance.currentAt blockTime = true
  didGrants : ∀ e ∈ s.didBook.grants.entries, e.2.allowance.currentAt blockTime = true

/-- The grants are the same as before, and those that expire are queued. -/
structure Restored (s t : State Γ) : Prop where
  grants : t.book.grants = s.book.grants
  didGrants : t.didBook.grants = s.didBook.grants
  queue : ∀ granter grantee grant exp, s.grant granter grantee = some grant → grant.allowance.expiresAt = .ok (some exp) →
    (t.book.queue.get (queueKey Γ exp granter grantee)).isSome = true
  didQueue : ∀ granter did grant exp, s.didGrant granter did = some grant → grant.allowance.expiresAt = .ok (some exp) →
    t.DIDQueued exp granter did

/-- What is exported of a store is imported into one with no grants, which restores it. -/
def RoundTrips (init : GenesisState Γ → M Γ Unit) (s : State Γ) : Prop :=
  ∃ g t, exportGenesis.Succeeds s g s ∧ (init g).Succeeds (State.init s.accounts) () t ∧ Restored s t

/-! ### One grant -/

theorem grantAllowance_apply {ctx : Ctx}
    (hnone : s.grant granter grantee = none) (ha : Γ.hasAccount s.accounts grantee.bytes = true)
    (hexp : a.expiresAt = .ok exp) (hp : exp.any (·.before ctx.blockTime) = false) (hm : a.marshalable = true) :
    ∃ events, (grantAllowance ctx granter grantee a).Succeeds s () { s with
      book := ⟨s.book.grants.set (feeAllowanceKey granter grantee) (grantOf granter grantee a), s.book.enqueue granter grantee exp⟩
      events := events } := by
  have hcr : (createGrantee grantee).Succeeds s () s := by
    unfold createGrantee
    rw [read_bind_ok, if_pos ha]
    exact pure_ok.2 ⟨rfl, rfl⟩
  have hg : newGrant granter (Γ.accAddressString grantee.bytes) a = .ok (grantOf granter grantee a) := by
    rw [newGrant, if_pos hm]
    rfl
  refine ⟨s.events ++ [.setFeeGrant (Γ.accAddressString granter.bytes) (Γ.accAddressString grantee.bytes)], ?_⟩
  unfold grantAllowance requireNotPast
  rw [read_bind_ok, require_bind_ok]
  refine ⟨Option.isNone_iff_eq_none.2 hnone, bind_ok.2 ⟨(), s, hcr, ?_⟩⟩
  rw [lift_bind_ok]
  refine ⟨exp, hexp, require_bind_ok.2 ⟨hp, ?_⟩⟩
  cases exp with
  | none => exact lift_bind_ok.2 ⟨_, hg, rfl⟩
  | some exp => exact bind_ok.2 ⟨(), _, rfl, lift_bind_ok.2 ⟨_, hg, rfl⟩⟩

theorem grantDIDAllowance_apply {ctx : Ctx} {did : KeyPart}
    (hnone : s.didGrant granter did = none) (hexp : a.expiresAt = .ok exp)
    (hp : exp.any (·.before ctx.blockTime) = false) (hm : a.marshalable = true) :
    ∃ events, (grantDIDAllowance ctx granter did a).Succeeds s () (s.onDID (s.didBook.putDID granter did a none exp) events) := by
  refine ⟨[.setDIDFeeGrant (Γ.accAddressString granter.bytes) did.bytes], ?_⟩
  unfold grantDIDAllowance requireNotPast
  rw [read_bind_ok, require_bind_ok]
  refine ⟨Option.isNone_iff_eq_none.2 hnone, ?_⟩
  rw [lift_bind_ok]
  refine ⟨exp, hexp, require_bind_ok.2 ⟨hp, ?_⟩⟩
  cases exp with
  | none => exact lift_bind_ok.2 ⟨_, newGrant_did hm, rfl⟩
  | some exp => exact bind_ok.2 ⟨(), _, rfl, lift_bind_ok.2 ⟨_, newGrant_did hm, rfl⟩⟩

theorem grantDIDAllowance_current {ctx : Ctx} {did : KeyPart}
    (h : (grantDIDAllowance ctx granter did a).Succeeds s u t) : a.currentAt ctx.blockTime = true := by
  unfold grantDIDAllowance requireNotPast at h
  rw [read_bind_ok, require_bind_ok, lift_bind_ok] at h
  obtain ⟨-, exp, hexp, hrest⟩ := h
  exact Allowance.currentAt_iff.2 ⟨exp, hexp, (require_bind_ok.1 hrest).1⟩

theorem stringToBytes_bind_ok {β : Type} {text : Bytes} {f : KeyPart → M Γ β} {b : β} :
    (stringToBytes text >>= f).Succeeds s b t ↔ ∃ address, Γ.stringToBytes text = .ok address ∧ (f address).Succeeds s b t := by
  unfold stringToBytes
  rw [lift_bind_ok]
  simp only [ofExcept_eq_ok]

theorem getGrant_eq_ok : f.getGrant = .ok a ↔ f.unpacked = true ∧ f.grant.allowance = a := by
  unfold GenesisGrant.getGrant
  split
  · rename_i h
    simp [h]
  · rename_i h
    simp [h]

theorem initAllowance_current (laws : AccountLaws Γ) {ctx : Ctx}
    (h : (initAllowance ctx f).Succeeds s () t) : f.unpacked = true ∧ f.grant.allowance.currentAt ctx.blockTime = true := by
  unfold initAllowance at h
  obtain ⟨granter, -, h⟩ := stringToBytes_bind_ok.1 h
  obtain ⟨grantee, -, h⟩ := stringToBytes_bind_ok.1 h
  rw [lift_bind_ok] at h
  obtain ⟨a, hget, hg⟩ := h
  obtain ⟨hu, rfl⟩ := getGrant_eq_ok.1 hget
  exact ⟨hu, Allowance.currentAt_iff.2 (grantAllowance_accounts laws hg).1⟩

theorem initDIDAllowance_current {ctx : Ctx}
    (h : (initDIDAllowance ctx f).Succeeds s () t) : f.unpacked = true ∧ f.grant.allowance.currentAt ctx.blockTime = true := by
  unfold initDIDAllowance at h
  obtain ⟨granter, -, h⟩ := stringToBytes_bind_ok.1 h
  rw [lift_bind_ok] at h
  obtain ⟨a, hget, hg⟩ := h
  obtain ⟨hu, rfl⟩ := getGrant_eq_ok.1 hget
  split at hg
  · exact ⟨hu, grantDIDAllowance_current hg⟩
  · exact absurd hg crash_ok

/-! ### All grants -/

section Import

variable (addr : AddressLaws Γ) (ctx : Ctx) {s : State Γ}

include addr

theorem forEach_initAllowance (hs : s.Kept) (hcu : ∀ e ∈ s.book.grants.entries, e.2.allowance.currentAt ctx.blockTime = true) :
    ∃ t, (Eff.forEach (s.book.grants.entries.map fun e => (⟨e.2, true⟩ : GenesisGrant Γ)) (initAllowance ctx)).Succeeds
        (State.init s.accounts) () t ∧ t.didBook = Book.init ∧ t.book.grants = s.book.grants ∧
      ∀ granter grantee grant exp, s.grant granter grantee = some grant → grant.allowance.expiresAt = .ok (some exp) →
        (t.book.queue.get (queueKey Γ exp granter grantee)).isSome = true := by
  have hl := forEach_restores s.book.grants (fun e => (⟨e.2, true⟩ : GenesisGrant Γ)) (initAllowance ctx)
    (s := State.init s.accounts) (fun store t => t.accounts = s.accounts ∧ t.didBook = Book.init ∧ t.book.grants = store ∧
      ∀ granter grantee grant exp, store.get (feeAllowanceKey granter grantee) = some grant →
        grant.allowance.expiresAt = .ok (some exp) → (t.book.queue.get (queueKey Γ exp granter grantee)).isSome = true)
    ⟨rfl, rfl, rfl, fun _ _ _ _ h => (nomatch h)⟩ ?_
  · obtain ⟨t, ht, -, hrest⟩ := hl
    exact ⟨t, ht, hrest⟩
  · rintro key grant hstored _ t hnone ⟨ha, hd, rfl, hqu⟩
    obtain ⟨granter, grantee, a, rfl, rfl, hm, hac⟩ := hs key grant hstored
    obtain ⟨exp, hexp, hp⟩ := Allowance.currentAt_iff.1 (hcu _ ((mem_entries _).2 hstored))
    obtain ⟨events, hgi⟩ := grantAllowance_apply hnone (ha ▸ hac) hexp hp hm
    refine ⟨_, stringToBytes_bind_ok.2 ⟨granter, addr.roundTrip granter, stringToBytes_bind_ok.2
      ⟨grantee, addr.roundTrip grantee, lift_bind_ok.2 ⟨a, rfl, hgi⟩⟩⟩, ha, hd, rfl, ?_⟩
    -- what was queued before stays, and the grant's own time is added
    intro granter' grantee' grant' exp' hg hexp'
    rw [get_set] at hg
    split at hg
    · rename_i hke
      obtain ⟨rfl, rfl⟩ := feeAllowanceKey_inj hke
      obtain rfl := Option.some.inj hg
      obtain rfl : exp = some exp' := Outcome.ok.inj (hexp.symm.trans hexp')
      exact (isSome_get_set _ _ _ _).2 (.inr rfl)
    · have hst := hqu granter' grantee' grant' exp' hg hexp'
      cases exp with
      | none => exact hst
      | some exp => exact (isSome_get_set _ _ _ _).2 (.inl hst)

theorem forEach_initDIDAllowance (hs : s.didBook.Agrees) {t₀ : State Γ} (hempty : t₀.didBook = Book.init)
    (hcu : ∀ e ∈ s.didBook.grants.entries, e.2.allowance.currentAt ctx.blockTime = true) :
    ∃ t, (Eff.forEach (s.didBook.grants.entries.map fun e => (⟨e.2, true⟩ : GenesisGrant Γ)) (initDIDAllowance ctx)).Succeeds
        t₀ () t ∧ t.book = t₀.book ∧ t.didBook.grants = s.didBook.grants ∧
      ∀ granter did grant exp, s.didGrant granter did = some grant → grant.allowance.expiresAt = .ok (some exp) →
        t.DIDQueued exp granter did := by
  have hl := forEach_restores s.didBook.grants (fun e => (⟨e.2, true⟩ : GenesisGrant Γ)) (initDIDAllowance ctx) (s := t₀)
    (fun store t => t.book = t₀.book ∧ t.didBook.grants = store ∧
      ∀ granter did grant exp, store.get (feeAllowanceByDIDKey granter did) = some grant →
        grant.allowance.expiresAt = .ok (some exp) → t.DIDQueued exp granter did)
    ⟨rfl, by rw [hempty]; rfl, fun _ _ _ _ h => (nomatch h)⟩ ?_
  · exact hl
  · rintro key grant hstored _ t hnone ⟨hb, rfl, hqu⟩
    obtain ⟨granter, did, a, rfl, rfl, hm, -⟩ := hs.keyed key grant hstored
    obtain ⟨exp, hexp, hp⟩ := Allowance.currentAt_iff.1 (hcu _ ((mem_entries _).2 hstored))
    obtain ⟨events, hgi⟩ := grantDIDAllowance_apply hnone hexp hp hm
    have ht : (initDIDAllowance ctx ⟨didGrantOf granter did a, true⟩).Succeeds t ()
        (t.onDID (t.didBook.putDID granter did a none exp) events) := by
      refine stringToBytes_bind_ok.2 ⟨granter, addr.roundTrip granter, lift_bind_ok.2 ⟨a, rfl, ?_⟩⟩
      show (match KeyPart.ofBytes did.bytes with
        | some granteeDID => grantDIDAllowance ctx granter granteeDID a
        | none => Eff.crash "address length should be max 255 bytes").Succeeds t () _
      rw [KeyPart.ofBytes_bytes]
      exact hgi
    refine ⟨_, ht, hb, rfl, ?_⟩
    intro granter' did' grant' exp' hg hexp'
    refine (isSome_putDID_queue t.didBook granter did a none exp ?_ _).2 ?_
    · rintro k ⟨_, h, -⟩
      cases h
    rw [get_set] at hg
    split at hg
    · rename_i hke
      obtain ⟨rfl, rfl⟩ := feeAllowanceByDIDKey_inj hke
      obtain rfl := Option.some.inj hg
      obtain rfl : exp = some exp' := Outcome.ok.inj (hexp.symm.trans hexp')
      exact .inr ⟨exp', rfl, rfl⟩
    · refine .inl ⟨hqu granter' did' grant' exp' hg hexp', ?_⟩
      rintro ⟨_, h, -⟩
      cases h

end Import

theorem initGenesis_of_current (addr : AddressLaws Γ) (ctx : Ctx) (hs : s.Kept) (hdid : s.didBook.Agrees)
    (hcu : s.Current ctx.blockTime) :
    ∃ t, (initGenesis ctx s.genesisState).Succeeds (State.init s.accounts) () t ∧ Restored s t := by
  obtain ⟨t₁, h₁, hempty, hg, hqu⟩ := forEach_initAllowance addr ctx hs hcu.grants
  obtain ⟨t, h₂, hb, hd, hdi⟩ := forEach_initDIDAllowance addr ctx hdid hempty hcu.didGrants
  refine ⟨t, bind_ok.2 ⟨(), t₁, h₁, h₂⟩, ?_, hd, ?_, hdi⟩
  · rw [hb]
    exact hg
  · rw [hb]
    exact hqu

theorem initGenesis_current (laws : AccountLaws Γ) {ctx : Ctx} {data : GenesisState Γ}
    (h : (initGenesis ctx data).Succeeds s () t) (f : GenesisGrant Γ) (hf : f ∈ data.allowances ∨ f ∈ data.didAllowances) :
    f.unpacked = true ∧ f.grant.allowance.currentAt ctx.blockTime = true := by
  obtain ⟨_, s₁, h₁, h₂⟩ := bind_ok.1 h
  rcases hf with hf | hf
  · obtain ⟨_, _, _, _, -, -, ht, -⟩ := forEach_ok_split h₁ hf
    exact initAllowance_current laws ht
  · obtain ⟨_, _, _, _, -, -, ht, -⟩ := forEach_ok_split h₂ hf
    exact initDIDAllowance_current ht

/-- What is read from the file of a store: the allowances of the grants to DIDs are still packed. -/
theorem decoded_unpackInterfaces (s : State Γ) : s.genesisState.decoded.unpackInterfaces =
    ⟨s.genesisState.allowances, s.didBook.grants.entries.map fun e => ⟨e.2, false⟩⟩ := by
  simp [State.genesisState, GenesisState.decoded, GenesisState.unpackInterfaces, Function.comp_def]

/-- In every state that is reached by calls on grants of both kinds, the keeper imports what it exports, and restores the store,
exactly if no stored grant has expired at the time of the block; and the module does so with a genesis file exactly if there is
no grant to a DID, besides. -/
theorem feegrant_genesis_round_trip_iff (addr : AddressLaws Γ) (laws : AccountLaws Γ) (times : TimeLaws Γ) (accounts : Γ.σ)
    (calls : List (Step Γ ⊕ DIDCall Γ)) (ctx : Ctx) :
    (RoundTrips (initGenesis ctx) (Run.run anyStep (State.init accounts) calls) ↔
      (Run.run anyStep (State.init accounts) calls).Current ctx.blockTime) ∧
    (RoundTrips (initGenesisFile ctx) (Run.run anyStep (State.init accounts) calls) ↔
      (Run.run anyStep (State.init accounts) calls).Current ctx.blockTime ∧
        (Run.run anyStep (State.init accounts) calls).didBook.grants.entries = []) := by
  obtain ⟨hs, hd⟩ := anyRun_kept laws times accounts calls
  generalize Run.run anyStep (State.init accounts) calls = s at hs hd ⊢
  refine ⟨⟨?_, fun hcu => ?_⟩, ⟨?_, ?_⟩⟩
  · rintro ⟨g, t, hexp, hin, -⟩
    obtain ⟨rfl, -⟩ := query_ok.1 hexp |>.imp_left Outcome.ok.inj
    have ha := initGenesis_current laws hin
    exact ⟨fun e he => (ha ⟨e.2, true⟩ (.inl (mem_map_of_mem he))).2,
      fun e he => (ha ⟨e.2, true⟩ (.inr (mem_map_of_mem he))).2⟩
  · obtain ⟨t, hin, hr⟩ := initGenesis_of_current addr ctx hs hd hcu
    exact ⟨s.genesisState, t, query_ok.2 ⟨rfl, rfl⟩, hin, hr⟩
  · rintro ⟨g, t, hexp, hin, -⟩
    obtain ⟨rfl, -⟩ := query_ok.1 hexp |>.imp_left Outcome.ok.inj
    have hin := must_ok.1 hin
    rw [decoded_unpackInterfaces] at hin
    have ha := initGenesis_current laws hin
    have hnone : s.didBook.grants.entries = [] := by
      refine eq_nil_iff_forall_not_mem.2 fun e he => ?_
      cases (ha ⟨e.2, false⟩ (.inr (mem_map_of_mem he))).1
    refine ⟨⟨fun e he => (ha ⟨e.2, true⟩ (.inl (mem_map_of_mem he))).2, fun e he => ?_⟩, hnone⟩
    rw [hnone] at he
    cases he
  · rintro ⟨hcu, hnone⟩
    obtain ⟨t, hin, hr⟩ := initGenesis_of_current addr ctx hs hd hcu
    refine ⟨s.genesisState, t, query_ok.2 ⟨rfl, rfl⟩, must_ok.2 ?_, hr⟩
    rw [decoded_unpackInterfaces, hnone]
    rw [State.genesisState, hnone] at hin
    exact hin

/-! ## A local chain -/

theorem localFees_accountLaws : AccountLaws localFees where
  created := fun (_ : List Bytes) _ => contains_iff_mem.2 mem_cons_self
  kept := fun (_ : List Bytes) _ _ h => contains_iff_mem.2 (mem_cons_of_mem _ (contains_iff_mem.1 h))

/-- A grant between accounts and one to a DID, both of which have been used. -/
def twoGrants : List (Step localFees ⊕ DIDCall localFees) :=
  [.inl (.grantAllowance grantBlock alice bob (.basic ⟨(5 : Int), some ⟨40, 0⟩⟩)),
    .inr (.grantDIDAllowance grantBlock alice localDid (.basic ⟨(5 : Int), some ⟨50, 0⟩⟩)),
    .inl (.useGrantedFees useBlock alice bob (2 : Int) []),
    .inr (.useFirstAvailableDIDGrant useBlock localDid (2 : Int) [])]

/-- Before they expire the keeper restores both grants; a genesis file with both is not imported. -/
theorem feegrant_genesis_round_trip_two :
    RoundTrips (initGenesis (blockAt 30 (by decide))) (Run.run anyStep (State.init ([] : List Bytes)) twoGrants) ∧
      ¬RoundTrips (initGenesisFile (blockAt 30 (by decide))) (Run.run anyStep (State.init ([] : List Bytes)) twoGrants) := by
  obtain ⟨hke, hf⟩ := feegrant_genesis_round_trip_iff localFees_addressLaws localFees_accountLaws localFees_timeLaws
    ([] : List Bytes) twoGrants (blockAt 30 (by decide))
  refine ⟨hke.2 ⟨by decide +kernel, by decide +kernel⟩, fun h => ?_⟩
  exact absurd (congrArg List.length (hf.1 h).2) (by decide +kernel)

/-- Two grants between the same accounts expire at the same time. The revocation of one of them deletes the entry of the other
from the queue, so pruning passes it by. -/
def lostEntry : List (Step localFees ⊕ DIDCall localFees) :=
  [.inl (.grantAllowance grantBlock alice bob (.basic ⟨(5 : Int), some ⟨20, 0⟩⟩)),
    .inl (.grantAllowance grantBlock bob alice (.basic ⟨(5 : Int), some ⟨20, 0⟩⟩)),
    .inl (.revokeAllowance useBlock bob alice),
    .inl (.removeExpiredAllowances pruneBlock 200),
    .inr (.removeExpiredDIDAllowances pruneBlock 200)]

/-- After the pruning at the end of a block the import in that block fails for an expired grant; and a genesis file with a
grant to a DID that has not expired is not imported. -/
theorem feegrant_genesis_round_trip_false :
    let s := Run.run anyStep (State.init (Γ := localFees) ([] : List Bytes)) lostEntry
    let t := Run.run anyStep (State.init (Γ := localFees) ([] : List Bytes)) twoGrants
    (initGenesis (blockAt 30 (by decide)) s.genesisState (State.init s.accounts)).1 =
        .err ⟨.invalidRequest, str "expiration is before current block time"⟩ ∧
      (initGenesis (blockAt 30 (by decide)) t.genesisState.decoded.unpackInterfaces (State.init t.accounts)).1 =
        .err errNoAllowance := by
  intro s t
  constructor
  · decide +kernel
  · decide +kernel

end Vera.Feegrant
