import Vera.Acp.Types
import Vera.Lib.Base32
import Vera.Lib.Decimal
import Vera.Lib.KVStore
import Vera.Lib.Sha256

/-!
# Access decisions

The record of an access request that was granted (`x/acp/types/access_decision.go`, `x/acp/access_decision/commands.go`). The
id of a decision is a hash of its fields. The fields are written to the hash one after the other, with no separator and no
length, and the block height of the creation time is not written at all.
-/

namespace Vera.Acp

open Outcome
open Bytes (str)

/-- An operation on an object; the object is a pointer. -/
structure Operation where
  object : Option Object
  permission : Bytes
  deriving Repr, DecidableEq

/-- For how many blocks a decision, its proof and a ticket are valid. -/
structure DecisionParams where
  decisionExpirationDelta : UInt64
  proofExpirationDelta : UInt64
  ticketExpirationDelta : UInt64
  deriving Repr, DecidableEq

structure AccessDecision where
  id : Bytes
  policyId : Bytes
  creator : Bytes
  creatorAccSequence : UInt64
  operations : List Operation
  actor : Bytes
  params : Option DecisionParams
  creationTime : Option Timestamp
  issuedHeight : UInt64
  deriving Repr, DecidableEq

/-- The fields of an operation, with its object. -/
structure HashedOperation where
  resource : Bytes
  id : Bytes
  permission : Bytes
  deriving Repr, DecidableEq

/-- The libraries that the id of a decision rests on. -/
structure DecisionEnv where
  /-- `TimestampString` of gogoproto, of a timestamp or of nil. -/
  timestampString : Option ProtoTimestamp → Bytes
  /-- `sort.Stable` with a `Less`. -/
  sortStable : (HashedOperation → HashedOperation → Bool) → List HashedOperation → List HashedOperation

section Id

variable {ε : Type}

/-- The fields of the operations. An operation without an object panics, in the comparison or when it is written. -/
def readOperations : List Operation → Outcome ε (List HashedOperation)
  | [] => .ok []
  | op :: rest => do
    let object ← deref op.object
    let others ← readOperations rest
    pure (⟨object.resource, object.id, op.permission⟩ :: others)

/-- The comparison the operations are sorted with. It is not an order on operations that differ in one field only. -/
def operationLess (left right : HashedOperation) : Bool :=
  left.resource < right.resource && left.id < right.id && left.permission < right.permission

def HashedOperation.texts (op : HashedOperation) : List Bytes := [op.resource, op.id, op.permission]

def operationTexts (ops : List HashedOperation) : List Bytes := ops.flatMap HashedOperation.texts

def DecisionParams.texts (p : DecisionParams) : List Bytes :=
  [Decimal.dec p.decisionExpirationDelta.toNat, Decimal.dec p.proofExpirationDelta.toNat,
    Decimal.dec p.ticketExpirationDelta.toNat]

def hashParams (p : DecisionParams) : Bytes := Sha256.sum256 p.texts.flatten

/-- What is written of a decision before its operations. -/
def AccessDecision.texts (Γ : DecisionEnv) (d : AccessDecision) (creationTime : Timestamp) : List Bytes :=
  [d.policyId, d.creator, d.actor, Decimal.dec d.creatorAccSequence.toNat, Decimal.dec d.issuedHeight.toNat,
    Γ.timestampString creationTime.protoTs]

/-- The string that is hashed: the fields, the operations in their sorted order, and the hash of the parameters. -/
def AccessDecision.preimage (Γ : DecisionEnv) (d : AccessDecision) (creationTime : Timestamp) (params : DecisionParams)
    (ops : List HashedOperation) : Bytes :=
  (d.texts Γ creationTime).flatten ++ (operationTexts (Γ.sortStable operationLess ops)).flatten ++ hashParams params

def hashDecision (Γ : DecisionEnv) (d : AccessDecision) : Outcome ε Bytes := do
  let ops ← readOperations d.operations
  let creationTime ← deref d.creationTime
  let params ← deref d.params
  pure (Sha256.sum256 (d.preimage Γ creationTime params ops))

def produceId (Γ : DecisionEnv) (d : AccessDecision) : Outcome ε Bytes := do
  let hash ← hashDecision Γ d
  pure (Base32.encode hash)

/-! ## Making a decision -/

/-- A request for a decision. -/
structure EvaluateAccessRequestsCommand where
  policyId : Option Bytes
  operations : Option (List Operation)
  actor : Bytes
  creationTime : Option Timestamp
  creatorAddress : Bytes
  creatorSequence : UInt64
  currentHeight : UInt64
  deriving Repr, DecidableEq

/-- The parameters of every decision (`StaticParamsRepository`). -/
def defaultDecisionParams : DecisionParams := ⟨100, 50, 100⟩

def buildDecision (Γ : DecisionEnv) (c : EvaluateAccessRequestsCommand) (params : Option DecisionParams) :
    Outcome ε AccessDecision := do
  let policyId ← deref c.policyId
  let decision : AccessDecision :=
    { id := []
      policyId := policyId
      creator := c.creatorAddress
      creatorAccSequence := c.creatorSequence
      operations := c.operations.getD []
      actor := c.actor
      params := params
      creationTime := c.creationTime
      issuedHeight := c.currentHeight }
  let id ← produceId Γ decision
  pure { decision with id := id }

def EvaluateAccessRequestsCommand.validate (c : EvaluateAccessRequestsCommand) : Outcome Bytes Unit := do
  Outcome.require (c.policyId.isSome = true) (str "policy cannot be nil")
  Outcome.require (c.operations.isSome = true) (str "access request cannot be nil")
  Outcome.require (c.currentHeight ≠ 0) (str "invalid height: must be nonzero positive number")

/-- Grant a request: check it, ask the engine, and store the decision under its id. -/
def execute (Γ : DecisionEnv) (verifyAccessRequest : EvaluateAccessRequestsCommand → Except Bytes Bool)
    (c : EvaluateAccessRequestsCommand) (store : KVStore Bytes AccessDecision) :
    Outcome Bytes (AccessDecision × KVStore Bytes AccessDecision) := do
  c.validate.mapErr (str "EvaluateAccessRequest: " ++ ·)
  let valid ← Outcome.ofExcept (str "EvaluateAccessRequest: " ++ ·) (verifyAccessRequest c)
  Outcome.require (valid = true) (str "EvaluateAccessRequest: unauthorized")
  let decision ← buildDecision Γ c (some defaultDecisionParams)
  pure (decision, store.set decision.id decision)

/-! ## What an id was made of -/

def HashedOperation.toOperation (op : HashedOperation) : Operation := ⟨some ⟨op.resource, op.id⟩, op.permission⟩

theorem toOperation_injective : Function.Injective HashedOperation.toOperation := by
  intro a b h
  cases a
  cases b
  simp only [HashedOperation.toOperation, Operation.mk.injEq, Option.some.injEq, Object.mk.injEq] at h
  obtain ⟨⟨rfl, rfl⟩, rfl⟩ := h
  rfl

theorem readOperations_eq_ok {ops : List Operation} {hs : List HashedOperation} :
    (readOperations ops : Outcome ε _) = .ok hs ↔ ops = hs.map HashedOperation.toOperation := by
  induction ops generalizing hs with
  | nil =>
    cases hs with
    | nil => exact ⟨fun _ => rfl, fun _ => rfl⟩
    | cons h hs => exact ⟨(nomatch ·), (nomatch ·)⟩
  | cons op rest ih =>
    simp only [readOperations, bind_eq_ok, deref_eq_ok, pure_eq_ok]
    constructor
    · rintro ⟨object, hob, others, hot, rfl⟩
      rw [ih.1 hot, List.map_cons]
      obtain ⟨o, p⟩ := op
      obtain rfl : o = some object := hob
      rfl
    · intro h
      cases hs with
      | nil => cases h
      | cons a hs =>
        obtain ⟨rfl, hrest⟩ := List.cons.inj h
        exact ⟨_, rfl, hs, ih.2 hrest, rfl⟩

theorem produceId_eq_ok {Γ : DecisionEnv} {d : AccessDecision} {id : Bytes} : (produceId Γ d : Outcome ε Bytes) = .ok id ↔
      ∃ ops creationTime params, d.operations = ops.map HashedOperation.toOperation ∧ d.creationTime = some creationTime ∧
        d.params = some params ∧ id = Base32.encode (Sha256.sum256 (d.preimage Γ creationTime params ops)) := by
  simp only [produceId, hashDecision, bind_eq_ok, readOperations_eq_ok, deref_eq_ok, pure_eq_ok]
  constructor
  · rintro ⟨_, ⟨ops, hop, creationTime, ht, params, hp, rfl⟩, rfl⟩
    exact ⟨ops, creationTime, params, hop, ht, hp, rfl⟩
  · rintro ⟨ops, creationTime, params, hop, ht, hp, rfl⟩
    exact ⟨_, ⟨ops, hop, creationTime, ht, params, hp, rfl⟩, rfl⟩

theorem produceId_buildDecision {Γ : DecisionEnv} {c : EvaluateAccessRequestsCommand} {params : Option DecisionParams}
    {d : AccessDecision} (h : (buildDecision Γ c params : Outcome ε AccessDecision) = .ok d) :
    (produceId Γ d : Outcome ε Bytes) = .ok d.id := by
  simp only [buildDecision, bind_eq_ok, deref_eq_ok, pure_eq_ok] at h
  obtain ⟨policyId, -, id, hid, rfl⟩ := h
  -- The id is no part of what is hashed.
  exact hid

end Id

/-- Every stored decision was built by a request, and is stored under its id. -/
def Produced (Γ : DecisionEnv) (store : KVStore Bytes AccessDecision) : Prop :=
  ∀ id d, store.get id = some d →
    d.id = id ∧ ∃ c params, (buildDecision Γ c params : Outcome Bytes AccessDecision) = .ok d

/-- Requests, each with the engine that is asked about it. -/
abbrev Requests := List ((EvaluateAccessRequestsCommand → Except Bytes Bool) × EvaluateAccessRequestsCommand)

/-- The decisions stored after the requests; one that is refused changes nothing. -/
def executeAll (Γ : DecisionEnv) (requests : Requests) : KVStore Bytes AccessDecision :=
  requests.foldl (fun store r => match execute Γ r.1 r.2 store with
    | .ok (_, next) => next
    | _ => store) .empty

/-- The id is the one the fields of the decision give, and a well-formed request asked for it that the engine granted. -/
def Granted (Γ : DecisionEnv) (requests : Requests) (id : Bytes) (d : AccessDecision) : Prop :=
  d.id = id ∧ (produceId Γ d : Outcome Bytes Bytes) = .ok id ∧ ∃ r ∈ requests, r.2.validate = .ok () ∧ r.1 r.2 = .ok true ∧
    (buildDecision Γ r.2 (some defaultDecisionParams) : Outcome Bytes AccessDecision) = .ok d

end Vera.Acp
