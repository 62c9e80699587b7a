import Vera.Feegrant.Allowance

/-!
# The keeper of the fee grants

Grants between accounts and grants to a DID (`x/feegrant/keeper/keeper.go`). Each kind has a store of grants and a queue of
the times at which they expire; pruning deletes what the queue lists as expired. The calls for the two kinds are siblings, but
not the same: an update of a grant to a DID moves its entry in the queue, one of a grant to an account does not, and a revoked
grant to an account looks for its entry under the two addresses exchanged.
-/

namespace Vera.Feegrant

open Eff KVStore
open Bytes (str)

/-- A grant as it is stored; the grantee of a grant to a DID is the DID. -/
structure Grant (Γ : Env) where
  granter : Bytes
  grantee : Bytes
  allowance : Allowance Γ

/-- What the module reports of its actions. -/
inductive Event where
  | setFeeGrant (granter grantee : Bytes)
  | updateFeeGrant (granter grantee : Bytes)
  | revokeFeeGrant (granter grantee : Bytes)
  | useFeeGrant (granter grantee : Bytes)
  | setDIDFeeGrant (granter granteeDid : Bytes)
  | updateDIDFeeGrant (granter granteeDid : Bytes)
  | revokeDIDFeeGrant (granter granteeDid : Bytes)
  | expireDIDFeeGrant (granter granteeDid : Bytes) (expirationTime : Time)
  | useDIDFeeGrant (granter granteeDid : Bytes)
  deriving Repr, DecidableEq

/-- The grants of one kind, and the queue of those that expire. -/
structure Book (Γ : Env) where
  grants : KVStore Bytes (Grant Γ)
  queue : KVStore Bytes Unit

/-- The store of `x/feegrant`, with the accounts and the events reported so far. -/
structure State (Γ : Env) where
  accounts : Γ.σ
  book : Book Γ
  didBook : Book Γ
  events : List Event

/-- What a call reads of its context: the time of the block, which the header has as a protobuf timestamp. -/
structure Ctx where
  blockTime : Time
  inYears : blockTime.inYears = true
  deriving Repr, DecidableEq

abbrev M (Γ : Env) (α : Type) : Type := Eff (State Γ) Error α

variable {Γ : Env}

def Book.init : Book Γ := ⟨KVStore.empty, KVStore.empty⟩

def State.init (accounts : Γ.σ) : State Γ := ⟨accounts, Book.init, Book.init, []⟩

def emit (e : Event) : M Γ Unit := Eff.modify fun s => { s with events := s.events ++ [e] }

def modifyBook (f : Book Γ → Book Γ) : M Γ Unit := Eff.modify fun s => { s with book := f s.book }

def modifyDIDBook (f : Book Γ → Book Γ) : M Γ Unit := Eff.modify fun s => { s with didBook := f s.didBook }

/-- A grant in its stored form: `NewGrant` and `NewDIDGrant`, then `Marshal`. -/
def newGrant (granter : KeyPart) (grantee : Bytes) (feeAllowance : Allowance Γ) : Outcome Error (Grant Γ) :=
  if feeAllowance.marshalable then .ok ⟨Γ.accAddressString granter.bytes, grantee, feeAllowance⟩ else .err ⟨.plain, []⟩

/-- An error unless a time of expiry is missing or not before the block. -/
def requireNotPast (ctx : Ctx) (exp : Option Time) : M Γ Unit :=
  Eff.require (exp.any (·.before ctx.blockTime) = false) ⟨.invalidRequest, str "expiration is before current block time"⟩

/-! ## Grants between accounts -/

def State.grant (s : State Γ) (granter grantee : KeyPart) : Option (Grant Γ) :=
  s.book.grants.get (feeAllowanceKey granter grantee)

def getGrant (granter grantee : KeyPart) : M Γ (Grant Γ) :=
  Eff.query fun s => Outcome.ofOption ⟨.notFound, str "fee-grant not found"⟩ (s.grant granter grantee)

def getAllowance (granter grantee : KeyPart) : M Γ (Allowance Γ) := do
  let grant ← getGrant granter grantee
  pure grant.allowance

/-- The key of a pair of accounts in the queue. -/
def queueKey (Γ : Env) (exp : Time) (granter grantee : KeyPart) : Bytes :=
  feeAllowanceQueueKey Γ.formatTimeBytes exp (feeAllowanceKey granter grantee).tail

def addToFeeAllowanceQueue (granter grantee : KeyPart) (exp : Time) : M Γ Unit :=
  modifyBook fun b => { b with queue := b.queue.set (queueKey Γ exp granter grantee) () }

def setGrant (granter grantee : KeyPart) (grant : Grant Γ) : M Γ Unit :=
  modifyBook fun b => { b with grants := b.grants.set (feeAllowanceKey granter grantee) grant }

/-- Create the account of a grantee who has none. -/
def createGrantee (grantee : KeyPart) : M Γ Unit := do
  let s ← Eff.read
  if Γ.hasAccount s.accounts grantee.bytes then pure ()
  else do
    Eff.require (Γ.blockedAddr grantee.bytes = false)
      ⟨.unauthorized, Γ.accAddressString grantee.bytes ++ str " is not allowed to receive funds"⟩
    Eff.modify fun s => { s with accounts := Γ.newAccount s.accounts grantee.bytes }

def grantAllowance (ctx : Ctx) (granter grantee : KeyPart) (feeAllowance : Allowance Γ) : M Γ Unit := do
  let s ← Eff.read
  Eff.require ((s.grant granter grantee).isNone = true) ⟨.invalidRequest, str "fee allowance already exists"⟩
  createGrantee grantee
  let exp ← Eff.lift feeAllowance.expiresAt
  requireNotPast ctx exp
  match exp with
  | none => pure ()
  | some exp => addToFeeAllowanceQueue granter grantee exp
  let grant ← Eff.lift (newGrant granter (Γ.accAddressString grantee.bytes) feeAllowance)
  setGrant granter grantee grant
  emit (.setFeeGrant grant.granter grant.grantee)

/-- `UpdateAllowance`: the queue stays as it is. -/
def updateAllowance (granter grantee : KeyPart) (feeAllowance : Allowance Γ) : M Γ Unit := do
  let _ ← getGrant granter grantee
  let grant ← Eff.lift (newGrant granter (Γ.accAddressString grantee.bytes) feeAllowance)
  setGrant granter grantee grant
  emit (.updateFeeGrant grant.granter grant.grantee)

/-- `revokeAllowance`: the entry it deletes from the queue is that of the pair with granter and grantee exchanged. -/
def revokeAllowance (granter grantee : KeyPart) : M Γ Unit := do
  let allowance ← getAllowance granter grantee
  modifyBook fun b => { b with grants := b.grants.delete (feeAllowanceKey granter grantee) }
  let exp ← Eff.lift allowance.expiresAt
  match exp with
  | none => pure ()
  | some exp => modifyBook fun b => { b with queue := b.queue.delete (queueKey Γ exp grantee granter) }
  emit (.revokeFeeGrant (Γ.accAddressString granter.bytes) (Γ.accAddressString grantee.bytes))

def useGrantedFees (ctx : Ctx) (granter grantee : KeyPart) (fee : Γ.Coins) (msgs : List Bytes) : M Γ Unit := do
  let allowance ← getAllowance granter grantee
  let v := allowance.accept ctx.blockTime fee msgs
  if v.remove then do
    -- an error of the revocation is ignored
    let _ ← (revokeAllowance granter grantee).attempt
    match v.err with
    | some e => Eff.fail e
    | none => emit (.useFeeGrant (Γ.accAddressString granter.bytes) (Γ.accAddressString grantee.bytes))
  else
    match v.err with
    | some e => Eff.fail e
    | none => do
      emit (.useFeeGrant (Γ.accAddressString granter.bytes) (Γ.accAddressString grantee.bytes))
      updateAllowance granter grantee v.allowance

/-! ## Pruning -/

/-- The keys of a queue from `start` on and before `stop`, in their order. -/
def Book.queued (b : Book Γ) (start stop : Bytes) : List Bytes :=
  (b.queue.entries.map Prod.fst).filter fun k => compare start k != .gt && compare k stop == .lt

/-- How many entries are handled: the counter has 32 bits and is compared with the limit after each entry. -/
def iterations (limit : Int32) : Nat := if 0 < limit.toInt then limit.toInt.toNat else (2 ^ 32 + limit.toInt).toNat

/-- Delete an entry of the queue and the grant it names. -/
def Book.expire (b : Book Γ) (grantKey : KeyPart → KeyPart → Bytes) (key : Bytes) : Outcome Error (Book Γ) := do
  let (granter, grantee) ← parseGranterGrantee key (1 + Γ.lenTime)
  pure ⟨b.grants.delete (grantKey granter grantee), b.queue.delete key⟩

/-- Delete entries of the queue one after another, with the grants they name. -/
def Book.expireAll (grantKey : KeyPart → KeyPart → Bytes) : List Bytes → Book Γ → Outcome Error (Book Γ)
  | [], b => .ok b
  | key :: rest, b => do
    let b ← b.expire grantKey key
    Book.expireAll grantKey rest b

/-- `RemoveExpiredAllowances`; the range ends after the key of the block's own time. -/
def removeExpiredAllowances (ctx : Ctx) (limit : Int32) : M Γ Unit := do
  let s ← Eff.read
  let keys := s.book.queued [0x01] (allowanceByExpTimeKey Γ.formatTimeBytes ctx.blockTime ++ [0x00])
  let b ← Eff.lift (Book.expireAll feeAllowanceKey (keys.take (iterations limit)) s.book)
  modifyBook fun _ => b

def removeExpiredDIDAllowances (ctx : Ctx) (limit : Int32) : M Γ Unit := do
  let s ← Eff.read
  let keys := s.didBook.queued [0x03] (didAllowanceByExpTimeKey Γ.formatTimeBytes ctx.blockTime ++ [0x00])
  let b ← Eff.lift (Book.expireAll feeAllowanceByDIDKey (keys.take (iterations limit)) s.didBook)
  modifyDIDBook fun _ => b

/-! ## Grants to DIDs -/

def State.didGrant (s : State Γ) (granter granteeDID : KeyPart) : Option (Grant Γ) :=
  s.didBook.grants.get (feeAllowanceByDIDKey granter granteeDID)

def getDIDGrant (granter granteeDID : KeyPart) : M Γ (Grant Γ) :=
  Eff.query fun s => Outcome.ofOption ⟨.notFound, str "fee-grant not found for DID"⟩ (s.didGrant granter granteeDID)

def getDIDAllowance (granter granteeDID : KeyPart) : M Γ (Allowance Γ) := do
  let grant ← getDIDGrant granter granteeDID
  pure grant.allowance

def didQueueKey (Γ : Env) (exp : Time) (granter granteeDID : KeyPart) : Bytes :=
  didFeeAllowanceQueueKey Γ.formatTimeBytes exp (feeAllowanceByDIDKey granter granteeDID).tail

def addToDIDFeeAllowanceQueue (granter granteeDID : KeyPart) (exp : Time) : M Γ Unit :=
  modifyDIDBook fun b => { b with queue := b.queue.set (didQueueKey Γ exp granter granteeDID) () }

def removeFromDIDFeeAllowanceQueue (granter granteeDID : KeyPart) (exp : Time) : M Γ Unit :=
  modifyDIDBook fun b => { b with queue := b.queue.delete (didQueueKey Γ exp granter granteeDID) }

def setDIDGrant (granter granteeDID : KeyPart) (grant : Grant Γ) : M Γ Unit :=
  modifyDIDBook fun b => { b with grants := b.grants.set (feeAllowanceByDIDKey granter granteeDID) grant }

def grantDIDAllowance (ctx : Ctx) (granter granteeDID : KeyPart) (feeAllowance : Allowance Γ) : M Γ Unit := do
  let s ← Eff.read
  Eff.require ((s.didGrant granter granteeDID).isNone = true)
    ⟨.invalidRequest, str "fee allowance already exists for this DID"⟩
  let exp ← Eff.lift feeAllowance.expiresAt
  requireNotPast ctx exp
  match exp with
  | none => pure ()
  | some exp => addToDIDFeeAllowanceQueue granter granteeDID exp
  let grant ← Eff.lift (newGrant granter granteeDID.bytes feeAllowance)
  setDIDGrant granter granteeDID grant
  emit (.setDIDFeeGrant grant.granter grant.grantee)

/-- Move the entry of a grant in the queue from one time of expiry to another. -/
def requeueDIDAllowance (granter granteeDID : KeyPart) (existingExpiration newExpiration : Option Time) : M Γ Unit := do
  match existingExpiration with
  | none => pure ()
  | some exp =>
    if newExpiration = some exp then pure () else removeFromDIDFeeAllowanceQueue granter granteeDID exp
  match newExpiration with
  | none => pure ()
  | some exp =>
    if existingExpiration = some exp then pure () else addToDIDFeeAllowanceQueue granter granteeDID exp

def updateDIDAllowance (granter granteeDID : KeyPart) (feeAllowance : Allowance Γ) : M Γ Unit := do
  let existingGrant ← getDIDGrant granter granteeDID
  let existingExpiration ← Eff.lift existingGrant.allowance.expiresAt
  let newExpiration ← Eff.lift feeAllowance.expiresAt
  let grant ← Eff.lift (newGrant granter granteeDID.bytes feeAllowance)
  requeueDIDAllowance granter granteeDID existingExpiration newExpiration
  setDIDGrant granter granteeDID grant
  emit (.updateDIDFeeGrant grant.granter grant.grantee)

def revokeDIDAllowance (granter granteeDID : KeyPart) : M Γ Unit := do
  let allowance ← getDIDAllowance granter granteeDID
  modifyDIDBook fun b => { b with grants := b.grants.delete (feeAllowanceByDIDKey granter granteeDID) }
  let exp ← Eff.lift allowance.expiresAt
  match exp with
  | none => pure ()
  | some exp => removeFromDIDFeeAllowanceQueue granter granteeDID exp
  emit (.revokeDIDFeeGrant (Γ.accAddressString granter.bytes) granteeDID.bytes)

/-- The time at which `ExpireDIDAllowance` lets an allowance expire, and the allowance with it: the end of the period, or at
once. -/
def expired (ctx : Ctx) : Allowance Γ → Outcome Error (Time × Allowance Γ)
  | .periodic a => .ok (a.periodReset, .periodic { a with basic := { a.basic with expiration := some a.periodReset } })
  | .basic a => .ok (ctx.blockTime, .basic { a with expiration := some ctx.blockTime })
  | .allowedMsg .. | .emptyAllowedMsg _ => .err ⟨.plain, str "unsupported allowance type: *feegrant.AllowedMsgAllowance"⟩

def expireDIDAllowance (ctx : Ctx) (granter granteeDID : KeyPart) : M Γ Unit := do
  let existingAllowance ← getDIDAllowance granter granteeDID
  let (newExpiration, allowance) ← Eff.lift (expired ctx existingAllowance)
  updateDIDAllowance granter granteeDID allowance
  emit (.expireDIDFeeGrant (Γ.accAddressString granter.bytes) granteeDID.bytes newExpiration)

def useGrantedFeesByDID (ctx : Ctx) (granter granteeDID : KeyPart) (fee : Γ.Coins) (msgs : List Bytes) : M Γ Unit := do
  let allowance ← (getDIDAllowance granter granteeDID).mapErr
    fun e => { e with msg := str "fee-grant not found for DID " ++ granteeDID.bytes ++ str ": " ++ e.msg }
  let v := allowance.accept ctx.blockTime fee msgs
  if v.remove then do
    let _ ← (revokeDIDAllowance granter granteeDID).attempt
    match v.err with
    | some e => Eff.fail e
    | none => emit (.useDIDFeeGrant (Γ.accAddressString granter.bytes) granteeDID.bytes)
  else
    match v.err with
    | some e => Eff.fail e
    | none => do
      emit (.useDIDFeeGrant (Γ.accAddressString granter.bytes) granteeDID.bytes)
      updateDIDAllowance granter granteeDID v.allowance

/-- What the loop over the grants to a DID does with the answer of one of them: the granter if it is used. -/
def settleDIDGrant (granter granteeDID : KeyPart) (granterText : Bytes) (v : Verdict (Allowance Γ)) :
    M Γ (Option KeyPart) :=
  if v.remove then do
    let _ ← (revokeDIDAllowance granter granteeDID).attempt
    match v.err with
    | some _ => pure none
    | none => do
      emit (.useDIDFeeGrant granterText granteeDID.bytes)
      pure (some granter)
  else
    match v.err with
    | some _ => pure none
    | none => do
      match ← (updateDIDAllowance granter granteeDID v.allowance).attempt with
      | .error _ => pure none
      | .ok () => do
        emit (.useDIDFeeGrant granterText granteeDID.bytes)
        pure (some granter)

def tryDIDGrant (ctx : Ctx) (granteeDID : KeyPart) (fee : Γ.Coins) (msgs : List Bytes) (grant : Grant Γ) :
    M Γ (Option KeyPart) :=
  match Γ.stringToBytes grant.granter with
  | .error _ => pure none
  | .ok granter => settleDIDGrant granter granteeDID grant.granter (grant.allowance.accept ctx.blockTime fee msgs)

/-- Try the grants to a DID one after another. -/
def tryDIDGrants (ctx : Ctx) (granteeDID : KeyPart) (fee : Γ.Coins) (msgs : List Bytes) : List (Grant Γ) → M Γ KeyPart
  | [] => Eff.fail ⟨.notFound, str "no usable fee-grant found for DID"⟩
  | grant :: rest => do
    match ← tryDIDGrant ctx granteeDID fee msgs grant with
    | some granter => pure granter
    | none => tryDIDGrants ctx granteeDID fee msgs rest

/-- The grants to a DID in the order of their keys. -/
def State.didGrants (s : State Γ) (granteeDID : KeyPart) : List (Grant Γ) :=
  (s.didBook.grants.entries.filter fun e => (feeAllowanceScanByDID granteeDID).isPrefixOf e.1).map Prod.snd

def useFirstAvailableDIDGrant (ctx : Ctx) (granteeDID : KeyPart) (fee : Γ.Coins) (msgs : List Bytes) : M Γ KeyPart := do
  let s ← Eff.read
  tryDIDGrants ctx granteeDID fee msgs (s.didGrants granteeDID)

/-! ## What the calls for accounts do when they succeed -/

/-- The queue with a time of expiry of a pair added, if there is one. -/
def Book.enqueue (b : Book Γ) (granter grantee : KeyPart) : Option Time → KVStore Bytes Unit
  | none => b.queue
  | some exp => b.queue.set (queueKey Γ exp granter grantee) ()

variable {granter grantee : KeyPart} {feeAllowance : Allowance Γ} {grant : Grant Γ} {s t : State Γ} {u : Unit}
  {ctx : Ctx}

theorem newGrant_eq_ok {grantee : Bytes}
    (h : newGrant granter grantee feeAllowance = .ok grant) : feeAllowance.marshalable = true ∧ grant.allowance = feeAllowance := by
  unfold newGrant at h
  split at h
  · rename_i hm
    obtain rfl := Outcome.ok.inj h
    exact ⟨hm, rfl⟩
  · cases h

theorem createGrantee_ok (h : (createGrantee grantee).Succeeds s u t) : t.book = s.book := by
  unfold createGrantee at h
  rw [read_bind_ok] at h
  split at h
  · rw [(pure_ok.1 h).2]
  · rw [require_bind_ok] at h
    rw [modify_ok.1 h.2]

theorem getGrant_ok : (getGrant granter grantee).Succeeds s grant t ↔ s.grant granter grantee = some grant ∧ t = s := by
  unfold getGrant
  rw [query_ok, Outcome.ofOption_eq_ok]

theorem getAllowance_ok {allowance : Allowance Γ} (h : (getAllowance granter grantee).Succeeds s allowance t) :
    t = s ∧ ∃ grant, s.grant granter grantee = some grant ∧ grant.allowance = allowance := by
  unfold getAllowance at h
  obtain ⟨grant, s₁, hget, hp⟩ := bind_ok.1 h
  obtain ⟨hg, rfl⟩ := getGrant_ok.1 hget
  obtain ⟨rfl, rfl⟩ := pure_ok.1 hp
  exact ⟨rfl, grant, hg, rfl⟩

theorem grantAllowance_ok (h : (grantAllowance ctx granter grantee feeAllowance).Succeeds s u t) :
    ∃ exp grant, feeAllowance.expiresAt = .ok exp ∧ feeAllowance.marshalable = true ∧ grant.allowance = feeAllowance ∧
      t.book = ⟨s.book.grants.set (feeAllowanceKey granter grantee) grant, s.book.enqueue granter grantee exp⟩ := by
  unfold grantAllowance requireNotPast at h
  rw [read_bind_ok, require_bind_ok] at h
  obtain ⟨-, h⟩ := h
  obtain ⟨_, s₁, hcr, h⟩ := bind_ok.1 h
  rw [lift_bind_ok] at h
  obtain ⟨exp, hexp, h⟩ := h
  rw [require_bind_ok] at h
  have hb := createGrantee_ok hcr
  have hrest : ∀ s₂ : State Γ, (do
      let grant ← Eff.lift (newGrant granter (Γ.accAddressString grantee.bytes) feeAllowance)
      setGrant granter grantee grant
      emit (.setFeeGrant grant.granter grant.grantee) : M Γ Unit).Succeeds s₂ u t →
      ∃ grant, feeAllowance.marshalable = true ∧ grant.allowance = feeAllowance ∧
        t.book = { s₂.book with grants := s₂.book.grants.set (feeAllowanceKey granter grantee) grant } := by
    intro s₂ h
    rw [lift_bind_ok] at h
    obtain ⟨grant, hg, h⟩ := h
    obtain ⟨hm, ha⟩ := newGrant_eq_ok hg
    unfold setGrant modifyBook emit at h
    rw [modify_bind_ok, modify_ok] at h
    exact ⟨grant, hm, ha, by rw [h]⟩
  cases exp with
  | none =>
    obtain ⟨grant, hm, ha, ht⟩ := hrest s₁ h.2
    exact ⟨none, grant, hexp, hm, ha, by rw [ht, hb]; rfl⟩
  | some exp =>
    obtain ⟨-, h⟩ := h
    unfold addToFeeAllowanceQueue modifyBook at h
    dsimp only at h
    rw [modify_bind_ok] at h
    obtain ⟨grant, hm, ha, ht⟩ := hrest _ h
    exact ⟨some exp, grant, hexp, hm, ha, by rw [ht, hb]; rfl⟩

theorem updateAllowance_ok (h : (updateAllowance granter grantee feeAllowance).Succeeds s u t) :
    ∃ grant, feeAllowance.marshalable = true ∧ grant.allowance = feeAllowance ∧
      t.book = { s.book with grants := s.book.grants.set (feeAllowanceKey granter grantee) grant } := by
  unfold updateAllowance at h
  obtain ⟨_, s₁, hget, hrest⟩ := bind_ok.1 h
  obtain ⟨-, rfl⟩ := getGrant_ok.1 hget
  rw [lift_bind_ok] at hrest
  obtain ⟨grant, hg, hs⟩ := hrest
  obtain ⟨hm, ha⟩ := newGrant_eq_ok hg
  unfold setGrant modifyBook emit at hs
  rw [modify_bind_ok, modify_ok] at hs
  exact ⟨grant, hm, ha, by rw [hs]⟩

/-- A book with no grant and no entry of the queue that another book does not have. -/
structure Book.Shrinks (b b' : Book Γ) : Prop where
  grants : ∀ k v, b'.grants.get k = some v → b.grants.get k = some v
  queue : ∀ k, (b'.queue.get k).isSome = true → (b.queue.get k).isSome = true

namespace Book.Shrinks

theorem refl (b : Book Γ) : b.Shrinks b := ⟨fun _ _ h => h, fun _ h => h⟩

theorem trans {a b c : Book Γ} (h : a.Shrinks b) (h' : b.Shrinks c) : a.Shrinks c :=
  ⟨fun k v hk => h.grants k v (h'.grants k v hk), fun k hk => h.queue k (h'.queue k hk)⟩

theorem delete_grant (b : Book Γ) (key : Bytes) : b.Shrinks { b with grants := b.grants.delete key } := by
  refine ⟨fun k v hk => ?_, fun _ h => h⟩
  rw [get_delete] at hk
  split at hk
  · cases hk
  · exact hk

theorem delete_queued (b : Book Γ) (key : Bytes) : b.Shrinks { b with queue := b.queue.delete key } :=
  ⟨fun _ _ h => h, fun _ hk => ((isSome_get_delete _ _ _).1 hk).1⟩

end Book.Shrinks

theorem revokeAllowance_shrinks (granter grantee : KeyPart) :
    Eff.Respects (fun s t => s.book.Shrinks t.book) (revokeAllowance granter grantee : M Γ Unit) := by
  have ht : ∀ ⦃s t u : State Γ⦄, s.book.Shrinks t.book → t.book.Shrinks u.book → s.book.Shrinks u.book :=
    fun _ _ _ h h' => h.trans h'
  have hsame : ∀ {α : Type} {x : M Γ α}, (∀ s, (x s).2.book = s.book) →
      Eff.Respects (fun s t => s.book.Shrinks t.book) x := by
    intro α x h s
    rw [h s]
    exact .refl _
  unfold revokeAllowance
  refine Eff.Respects.bind ht (hsame fun s => ?_) fun allowance => ?_
  · unfold getAllowance getGrant
    rw [bind_pure_snd]
    rfl
  refine Eff.Respects.bind ht (fun s => .delete_grant _ _) fun _ => ?_
  refine Eff.Respects.bind ht (hsame fun s => rfl) fun exp => ?_
  cases exp with
  | none => exact hsame fun s => rfl
  | some exp => exact Eff.Respects.bind ht (fun s => .delete_queued _ _) fun _ => hsame fun s => rfl

/-- A fee paid from a grant deletes, or it stores the grant with an allowance that expires when the one before did. -/
theorem useGrantedFees_ok {fee : Γ.Coins} {msgs : List Bytes}
    (h : (useGrantedFees ctx granter grantee fee msgs).Succeeds s u t) :
    s.book.Shrinks t.book ∨
      ∃ grant grant', s.grant granter grantee = some grant ∧ grant'.allowance.expiresAt = grant.allowance.expiresAt ∧
        t.book = { s.book with grants := s.book.grants.set (feeAllowanceKey granter grantee) grant' } := by
  unfold useGrantedFees at h
  obtain ⟨allowance, s₁, hget, hrest⟩ := bind_ok.1 h
  obtain ⟨rfl, grant, hg, rfl⟩ := getAllowance_ok hget
  have hexp := grant.allowance.accept_expiresAt ctx.blockTime fee msgs
  generalize grant.allowance.accept ctx.blockTime fee msgs = v at hrest hexp
  obtain ⟨remove, err, allowance⟩ := v
  cases remove with
  | true =>
    refine .inl ?_
    obtain ⟨_, s₂, hr, hem⟩ := bind_ok.1 hrest
    have hs := (revokeAllowance_shrinks granter grantee).attempt s₁
    rw [hr] at hs
    cases err with
    | some e => exact absurd hem fail_ok
    | none =>
      rw [modify_ok.1 hem]
      exact hs
  | false =>
    cases err with
    | some e => exact absurd hrest fail_ok
    | none =>
      obtain ⟨_, s₂, hem, hu⟩ := bind_ok.1 hrest
      obtain ⟨grant', -, ha, ht⟩ := updateAllowance_ok hu
      rw [modify_ok.1 hem] at ht
      exact .inr ⟨grant, grant', hg, by rw [ha]; exact hexp, ht⟩

end Vera.Feegrant
