import Mathlib.Data.List.Sort
import Vera.Acp.AccessDecision

/-!
# Access tickets

A ticket carries an access decision, a proof that the chain stores a decision under its id, and a signature of the actor
(`x/acp/access_ticket`). The verifier checks the proof, the signature over the id, and that the id is the hash of the carried
decision; it does not compare the carried decision with the stored one. As the hashed string does not say where a field
ends, a decision with other fields can have the stored decision's id.
-/

namespace Vera.Acp

open KVStore List Outcome
open Bytes (str)

structure AccessTicket where
  versionDenominator : Bytes
  decisionId : Bytes
  decision : Option AccessDecision
  decisionProof : Bytes
  signature : Bytes
  deriving Repr, DecidableEq

/-- The answer to a store query, as far as it is read. -/
structure ResponseQuery (ProofOps : Type) where
  height : Int
  value : Bytes
  proofOps : ProofOps

/-- The libraries and the trusted node that the verifier uses. -/
structure TicketEnv extends DecisionEnv where
  ProofOps : Type
  unmarshalResponseQuery : Bytes → Except Bytes (ResponseQuery ProofOps)
  /-- The app hash of the block at a height. -/
  getBlockHeader : Int → Except Bytes Bytes
  /-- Check store proofs for a root, a key path and a value. -/
  verifyValue : ProofOps → Bytes → Bytes → Bytes → Except Bytes Unit
  /-- The public key in a `did:key`. -/
  decodeDID : Bytes → Except Bytes (Bytes × KeyType)
  /-- Check a signature with a secp256k1 key. -/
  verifySignature : Bytes → Bytes → Bytes → Bool
  getCurrentHeight : Except Bytes Int

/-- Why a ticket is refused. -/
inductive TicketError where
  | invalidDecisionProof (cause : Bytes)
  | external (cause : Bytes)
  | invalidDID (cause : Bytes)
  | unsupportedKeyType (keyType : KeyType)
  | invalidSignature
  | decisionTampered (expected got : Bytes)
  | expiredDecision
  | expiredTicket
  deriving Repr, DecidableEq

/-- The key of a decision in the store of the app. -/
def kvKey (decisionId : Bytes) : Bytes := str "/acp/access_decision/" ++ decisionId

/-- Check the proof that the chain stores a decision under an id. -/
def verifyProof (Γ : TicketEnv) (decisionId decisionProof : Bytes) : Outcome TicketError Unit := do
  let query ← Outcome.ofExcept .invalidDecisionProof (Γ.unmarshalResponseQuery decisionProof)
  let root ← Outcome.ofExcept .external (Γ.getBlockHeader (Int.bmod (query.height + 1) (2 ^ 64)))
  Outcome.ofExcept .invalidDecisionProof (Γ.verifyValue query.proofOps root (kvKey decisionId) query.value)

def hashTicket (ticket : AccessTicket) : Bytes :=
  Sha256.sum256 (ticket.versionDenominator ++ ticket.decisionId ++ ticket.decisionProof)

/-- The id of the ticket is the id of the decision it carries. -/
def validateDecision (Γ : TicketEnv) (ticket : AccessTicket) (decision : AccessDecision) : Outcome TicketError Unit := do
  let decisionHash ← produceId Γ.toDecisionEnv decision
  Outcome.require (decisionHash = ticket.decisionId) (.decisionTampered ticket.decisionId decisionHash)
  Outcome.require (decisionHash = decision.id) (.decisionTampered ticket.decisionId decisionHash)

/-- The decision, its proof and the ticket have not expired. Heights are 64-bit numbers, and so are their sums. -/
def checkExpirations (height : UInt64) (decision : AccessDecision) : Outcome TicketError Unit := do
  let params ← deref decision.params
  Outcome.require (height ≤ decision.issuedHeight + params.decisionExpirationDelta) .expiredDecision
  Outcome.require (height ≤ decision.issuedHeight + params.proofExpirationDelta) .expiredDecision
  Outcome.require (height ≤ decision.issuedHeight + params.ticketExpirationDelta) .expiredTicket

def satisfiesRaw (Γ : TicketEnv) (ticket : AccessTicket) : Outcome TicketError Unit := do
  verifyProof Γ ticket.decisionId ticket.decisionProof
  let decision ← deref ticket.decision
  let key ← Outcome.ofExcept .invalidDID (Γ.decodeDID decision.actor)
  Outcome.require (key.2 = .secp256k1) (.unsupportedKeyType key.2)
  Outcome.require (Γ.verifySignature key.1 (hashTicket ticket) ticket.signature = true) .invalidSignature
  validateDecision Γ ticket decision
  let height ← Outcome.ofExcept .external Γ.getCurrentHeight
  checkExpirations (UInt64.ofInt height) decision

/-! ## The carried decision and the stored one -/

/-- Two decisions agree in every field, up to the order of the operations. -/
def SameDecision (d stored : AccessDecision) : Prop :=
  d.operations.Perm stored.operations ∧ { d with operations := [] } = { stored with operations := [] }

/-- The operations as they are hashed; without one of an operation without object there is nothing to hash. -/
def AccessDecision.hashedOperations (Γ : DecisionEnv) (d : AccessDecision) : List HashedOperation :=
  match (readOperations d.operations : Outcome Unit _) with
  | .ok ops => Γ.sortStable operationLess ops
  | _ => []

/-- What is hashed of the fields before the operations. -/
def AccessDecision.hashedTexts (Γ : DecisionEnv) (d : AccessDecision) : List Bytes :=
  (d.creationTime.map (d.texts Γ)).getD []

def AccessDecision.paramTexts (d : AccessDecision) : List Bytes := (d.params.map DecisionParams.texts).getD []

def lengths (texts : List Bytes) : List Nat := texts.map List.length

/-- The fields of two decisions are cut at the same places: their texts have the same lengths, those of the operations in
some order of the stored operations that gives the same string. The block height of the creation time, which is not hashed,
is the same. -/
structure SameCuts (Γ : DecisionEnv) (d stored : AccessDecision) : Prop where
  texts : lengths (d.hashedTexts Γ) = lengths (stored.hashedTexts Γ)
  params : lengths d.paramTexts = lengths stored.paramTexts
  operations : ∃ order : List HashedOperation, (order.map HashedOperation.toOperation).Perm stored.operations ∧
    (operationTexts order).flatten = (operationTexts (stored.hashedOperations Γ)).flatten ∧
    lengths (operationTexts order) = lengths (operationTexts (d.hashedOperations Γ))
  blockHeight : d.creationTime.map Timestamp.blockHeight = stored.creationTime.map Timestamp.blockHeight

/-- The strings that are hashed for a decision's id: all fields, and the parameters. -/
def AccessDecision.hashedStrings (Γ : DecisionEnv) (d : AccessDecision) : List Bytes :=
  [(d.hashedTexts Γ).flatten ++ (operationTexts (d.hashedOperations Γ)).flatten ++ Sha256.sum256 d.paramTexts.flatten,
    d.paramTexts.flatten]

/-- No two of the strings hashed for two decisions collide. -/
def NoCollision (Γ : DecisionEnv) (d stored : AccessDecision) : Prop :=
  ∀ x ∈ d.hashedStrings Γ ++ stored.hashedStrings Γ, ∀ y ∈ d.hashedStrings Γ ++ stored.hashedStrings Γ,
    Sha256.sum256 x = Sha256.sum256 y → x = y

/-- A store proof that is accepted for a decision's key is a proof for a decision in the store. -/
def ProofSound (Γ : TicketEnv) (store : KVStore Bytes AccessDecision) : Prop :=
  ∀ (query : ResponseQuery Γ.ProofOps) (root decisionId : Bytes),
    Γ.getBlockHeader (Int.bmod (query.height + 1) (2 ^ 64)) = .ok root →
    Γ.verifyValue query.proofOps root (kvKey decisionId) query.value = .ok () → ∃ d, store.get decisionId = some d

namespace TicketAux

variable {Γ : DecisionEnv} {ε : Type}

theorem operationTexts_injective : Function.Injective operationTexts := by
  intro x y h
  induction x generalizing y with
  | nil =>
    cases y with
    | nil => rfl
    | cons b y => cases h
  | cons a x ih =>
    cases y with
    | nil => cases h
    | cons b y =>
      simp only [operationTexts, flatMap_cons, HashedOperation.texts, cons_append, nil_append, List.cons.injEq] at h
      obtain ⟨h1, h2, h3, hrest⟩ := h
      rw [ih hrest]
      cases a
      cases b
      simp only at h1 h2 h3
      rw [h1, h2, h3]

/-- What is known of a decision that has an id. -/
structure HasId (Γ : DecisionEnv) (d : AccessDecision) (id : Bytes) (creationTime : Timestamp) (params : DecisionParams) :
    Prop where
  creationTime : d.creationTime = some creationTime
  params : d.params = some params
  operations : ((d.hashedOperations Γ).map HashedOperation.toOperation).Perm d.operations
  id : id = Base32.encode (Sha256.sum256
    ((d.hashedTexts Γ).flatten ++ (operationTexts (d.hashedOperations Γ)).flatten ++ Sha256.sum256 d.paramTexts.flatten))

variable {d stored : AccessDecision} {id : Bytes} {ct ct' : Timestamp} {ps ps' : DecisionParams}

theorem hasId_of_produceId (hs : ∀ less ops, (Γ.sortStable less ops).Perm ops)
    (h : (produceId Γ d : Outcome ε Bytes) = .ok id) : ∃ creationTime params, HasId Γ d id creationTime params := by
  obtain ⟨ops, creationTime, params, hop, ht, hpa, rfl⟩ := produceId_eq_ok.1 h
  have hh : d.hashedOperations Γ = Γ.sortStable operationLess ops := by
    unfold AccessDecision.hashedOperations
    rw [readOperations_eq_ok.2 hop]
  have hte : d.hashedTexts Γ = d.texts Γ creationTime := by
    unfold AccessDecision.hashedTexts
    rw [ht]
    rfl
  have hp : d.paramTexts = params.texts := by
    unfold AccessDecision.paramTexts
    rw [hpa]
    rfl
  refine ⟨creationTime, params, ht, hpa, ?_, ?_⟩
  · rw [hh, hop]
    exact (hs operationLess ops).map _
  · rw [hh, hte, hp]
    rfl

theorem strings_eq (hd : HasId Γ d id ct ps) (hs : HasId Γ stored id ct' ps') (hf : NoCollision Γ d stored) :
    (d.hashedTexts Γ).flatten ++ (operationTexts (d.hashedOperations Γ)).flatten =
        (stored.hashedTexts Γ).flatten ++ (operationTexts (stored.hashedOperations Γ)).flatten ∧
      d.paramTexts.flatten = stored.paramTexts.flatten := by
  have hh := Base32.encode_injective (by rw [Sha256.length_sum256, Sha256.length_sum256]) (hd.id.symm.trans hs.id)
  have hst := hf _ (by simp [AccessDecision.hashedStrings]) _ (by simp [AccessDecision.hashedStrings]) hh
  -- The hash of the parameters is the last part and has a fixed length.
  obtain ⟨hfr, hp⟩ := append_inj' hst (by rw [Sha256.length_sum256, Sha256.length_sum256])
  exact ⟨hfr, hf _ (by simp [AccessDecision.hashedStrings]) _ (by simp [AccessDecision.hashedStrings]) hp⟩

theorem sameCuts_of_sameDecision (hd : HasId Γ d id ct ps) (hs : HasId Γ stored id ct' ps') (hfre : NoCollision Γ d stored)
    (h : SameDecision d stored) : SameCuts Γ d stored := by
  obtain ⟨hp, hf⟩ := h
  have ht : d.hashedTexts Γ = stored.hashedTexts Γ := by
    have h := congrArg (AccessDecision.hashedTexts Γ) hf
    exact h
  obtain ⟨hfr, -⟩ := strings_eq hd hs hfre
  rw [ht] at hfr
  refine ⟨by rw [ht], congrArg (fun x => lengths x.paramTexts) hf, ?_,
    congrArg (fun x => x.creationTime.map Timestamp.blockHeight) hf⟩
  exact ⟨d.hashedOperations Γ, hd.operations.trans hp, append_cancel_left hfr, rfl⟩

theorem toNat_dec_injective {a b : UInt64} (h : Decimal.dec a.toNat = Decimal.dec b.toNat) : a = b :=
  UInt64.toNat_inj.1 (Decimal.dec_injective h)

theorem sameDecision_of_sameCuts (htim : Function.Injective Γ.timestampString)
    (hd : HasId Γ d id ct ps) (hs : HasId Γ stored id ct' ps')
    (hfr : NoCollision Γ d stored) (hid : d.id = stored.id) (h : SameCuts Γ d stored) : SameDecision d stored := by
  obtain ⟨hf, hpa⟩ := strings_eq hd hs hfr
  obtain ⟨ht, hop⟩ := Bytes.flatten_append_inj h.texts hf
  have hp : d.paramTexts = stored.paramTexts :=
    (Bytes.flatten_append_inj (u := []) (v := []) h.params (by rw [hpa])).1
  obtain ⟨order, hor, hfl, hl⟩ := h.operations
  have hsame : operationTexts order = operationTexts (d.hashedOperations Γ) :=
    (Bytes.flatten_append_inj (u := []) (v := []) hl (by rw [hfl, hop])).1
  obtain rfl := operationTexts_injective hsame
  refine ⟨hd.operations.symm.trans hor, ?_⟩
  have hb := h.blockHeight
  unfold AccessDecision.hashedTexts at ht
  unfold AccessDecision.paramTexts at hp
  rw [hd.creationTime, hs.creationTime] at ht hb
  rw [hd.params, hs.params] at hp
  simp only [Option.map_some, Option.getD_some, AccessDecision.texts, DecisionParams.texts, List.cons.injEq, and_true,
    Option.some.injEq] at ht hp hb
  obtain ⟨hpolicy, hcr, ha, hse, his, hts⟩ := ht
  obtain ⟨hp1, hp2, hp3⟩ := hp
  have hct : ct = ct' := by
    cases ct
    cases ct'
    simp only at hb hts
    rw [htim hts, hb]
  have hps : ps = ps' := by
    cases ps
    cases ps'
    simp only at hp1 hp2 hp3
    rw [toNat_dec_injective hp1, toNat_dec_injective hp2, toNat_dec_injective hp3]
  have hti : d.creationTime = stored.creationTime := by rw [hd.creationTime, hs.creationTime, hct]
  have hal : d.params = stored.params := by rw [hd.params, hs.params, hps]
  rw [hid, hpolicy, hcr, ha, toNat_dec_injective hse, toNat_dec_injective his, hti, hal]

theorem satisfiesRaw_eq_ok {Γ : TicketEnv} {ticket : AccessTicket} (h : satisfiesRaw Γ ticket = .ok ()) :
    verifyProof Γ ticket.decisionId ticket.decisionProof = .ok () ∧
      ∃ d, ticket.decision = some d ∧ d.id = ticket.decisionId ∧
        (produceId Γ.toDecisionEnv d : Outcome TicketError Bytes) = .ok d.id := by
  simp only [satisfiesRaw, validateDecision, bind_eq_ok, deref_eq_ok, require_eq_ok] at h
  obtain ⟨_, hpr, d, hd, _, -, _, -, _, -, _, ⟨decisionHash, hp, _, h1, h2⟩, -⟩ := h
  subst h2
  exact ⟨hpr, d, hd, h1, hp⟩

theorem stored_of_verifyProof {Γ : TicketEnv} {store : KVStore Bytes AccessDecision} (hs : ProofSound Γ store)
    {decisionId proof : Bytes} (h : verifyProof Γ decisionId proof = .ok ()) : ∃ d, store.get decisionId = some d := by
  simp only [verifyProof, bind_eq_ok, ofExcept_eq_ok] at h
  obtain ⟨query, -, root, hr, hv⟩ := h
  exact hs query root decisionId hr hv

end TicketAux

open TicketAux

/-! ## A node with one decision -/

section OneDecision

/-- A text for timestamps: the seconds and the nanoseconds, with a separator. -/
def plainTimestamp : Option ProtoTimestamp → Bytes
  | none => [0x2f]
  | some t => Decimal.decInt t.seconds ++ 0x2f :: Decimal.decInt t.nanos

theorem plainTimestamp_injective : Function.Injective plainTimestamp := by
  have hs : ∀ z, (0x2f : UInt8) ∉ Decimal.decInt z := by
    intro z hm
    rcases Decimal.mem_decInt hm with h | h <;> exact absurd h (by decide)
  have hni : ∀ z, Decimal.decInt z ≠ [] := by
    intro z h
    unfold Decimal.decInt at h
    split at h
    · cases h
    · exact Decimal.dec_ne_nil _ h
  intro a b h
  cases a with
  | none =>
    cases b with
    | none => rfl
    | some u =>
      obtain ⟨h1, -⟩ := Bytes.append_sep_inj (x := []) (u := []) not_mem_nil (hs u.seconds) h
      exact absurd h1.symm (hni _)
  | some t =>
    cases b with
    | none =>
      obtain ⟨h1, -⟩ := Bytes.append_sep_inj (y := []) (v := []) (hs t.seconds) not_mem_nil h
      exact absurd h1 (hni _)
    | some u =>
      obtain ⟨h1, h2⟩ := Bytes.append_sep_inj (hs t.seconds) (hs u.seconds) h
      have hse : t.seconds = u.seconds := Decimal.decInt_injective h1
      have hna : t.nanos = u.nanos := Decimal.decInt_injective h2
      cases t
      cases u
      simp only at hse hna
      rw [hse, hna]

def plainLibraries : DecisionEnv where
  timestampString := plainTimestamp
  sortStable := fun less ops => ops.insertionSort fun a b => less b a = false

/-- A request by an account that has sent twelve transactions, at height 100. -/
def readRequest : EvaluateAccessRequestsCommand where
  policyId := some (str "policy")
  operations := some [⟨some ⟨str "file", str "readme.txt"⟩, str "read"⟩]
  actor := str "did:key:zQ3shoXy"
  creationTime := some ⟨some ⟨1690380510, 0⟩, 100⟩
  creatorAddress := str "vera1creator"
  creatorSequence := 12
  currentHeight := 100

def granted : AccessDecision where
  id := Base32.encode (Sha256.sum256
    (str "policyvera1creatordid:key:zQ3shoXy121001690380510/0filereadme.txtread" ++
      Sha256.sum256 (str "10050100")))
  policyId := str "policy"
  creator := str "vera1creator"
  creatorAccSequence := 12
  operations := [⟨some ⟨str "file", str "readme.txt"⟩, str "read"⟩]
  actor := str "did:key:zQ3shoXy"
  params := some defaultDecisionParams
  creationTime := some ⟨some ⟨1690380510, 0⟩, 100⟩
  issuedHeight := 100

theorem buildDecision_granted :
    (buildDecision plainLibraries readRequest (some defaultDecisionParams) : Outcome Bytes AccessDecision) = .ok granted := by
  decide +kernel

def grantedStore : KVStore Bytes AccessDecision := KVStore.empty.set granted.id granted

theorem grantedStore_produced : Produced plainLibraries grantedStore :=
  All.set .empty ⟨rfl, readRequest, _, buildDecision_granted⟩

/-- A node at a height, whose store proofs are for the one decision; a signature is the digest that is signed. -/
def nodeAt (height : Int) : TicketEnv where
  toDecisionEnv := plainLibraries
  ProofOps := Unit
  unmarshalResponseQuery := fun proof => .ok ⟨height, proof, ()⟩
  getBlockHeader := fun _ => .ok []
  verifyValue := fun _ _ key _ => if key = kvKey granted.id then .ok () else .error (str "invalid proof")
  decodeDID := fun actor => .ok (actor, .secp256k1)
  verifySignature := fun _ digest signature => digest == signature
  getCurrentHeight := .ok height

theorem nodeAt_sound (height : Int) : ProofSound (nodeAt height) grantedStore := by
  intro query root id _ h
  simp only [nodeAt] at h
  split at h
  · rename_i heq
    obtain rfl := append_cancel_left heq
    exact ⟨granted, get_set_self _ _ _⟩
  · cases h

theorem nodeAt_sort (height : Int) (less : HashedOperation → HashedOperation → Bool) (ops : List HashedOperation) :
    ((nodeAt height).sortStable less ops).Perm ops := perm_insertionSort _ ops

def ticketFor (d : AccessDecision) : AccessTicket where
  versionDenominator := str "v1"
  decisionId := granted.id
  decision := some d
  decisionProof := []
  signature := Sha256.sum256 (str "v1" ++ granted.id)

/-- The decision with the last digit of the sequence number moved to the issued height. -/
def prolonged : AccessDecision := { granted with creatorAccSequence := 1, issuedHeight := 2100 }

theorem grantedStore_get {stored : AccessDecision} (h : grantedStore.get granted.id = some stored) : stored = granted := by
  rw [grantedStore, get_set_self] at h
  exact (Option.some.inj h).symm

theorem noCollision_granted {d : AccessDecision} (h : d.hashedStrings plainLibraries = granted.hashedStrings plainLibraries) :
    NoCollision plainLibraries d granted := by
  have hne : ∃ a b, granted.hashedStrings plainLibraries = [a, b] ∧ Sha256.sum256 a ≠ Sha256.sum256 b :=
    ⟨_, _, rfl, by decide +kernel⟩
  obtain ⟨a, b, hl, hne⟩ := hne
  intro x hx y hy hxy
  rw [h, hl] at hx hy
  have ht : ∀ z ∈ [a, b] ++ [a, b], z = a ∨ z = b := by simp
  rcases ht x hx with rfl | rfl <;> rcases ht y hy with rfl | rfl
  · rfl
  · exact absurd hxy hne
  · exact absurd hxy.symm hne
  · rfl

end OneDecision

end Vera.Acp
