import Vera.Acp.Types
import Vera.Lib.Decimal
import Vera.Lib.KVStore
import Vera.Lib.Run
import Vera.Lib.Sha256

/-!
# Signed policy commands

A policy command that its actor has signed, wrapped in a JWS (`x/acp/signed_policy_cmd`,
`x/acp/keeper/msg_server_signed_policy_cmd.go`). A cache of the ids of processed commands keeps a command from being executed
again before it expires. The id is the hash of the string that carries the command, but the signature is checked on what is
parsed from the string, and one signed command can be written as more than one string.
-/

namespace Vera.Acp

open Eff KVStore Outcome
open Bytes (str)

/-- What the actor signs; the command is a pointer. -/
structure SignedPolicyCmdPayload (Cmd : Type) where
  actor : Bytes
  issuedHeight : UInt64
  expirationDelta : UInt64
  policyId : Bytes
  cmd : Option Cmd

/-- How a signed command is encoded. -/
inductive ContentType where
  | jws
  | other (n : Int)
  deriving Repr, DecidableEq

/-- A message with a signed command. -/
structure MsgSignedPolicyCmd where
  creator : Bytes
  payload : Bytes
  contentType : ContentType
  deriving Repr, DecidableEq

/-- What a command is executed with. -/
structure PolicyCmdCtx where
  block : BlockCtx
  policyId : Bytes
  principalDID : Bytes
  now : Timestamp
  maxExpirationDelta : UInt64
  signer : Bytes

/-- The JWS and DID libraries, and the handler of policy commands with the state it works on. -/
structure CmdEnv where
  σ : Type
  JWS : Type
  Cmd : Type
  Result : Type
  PubKey : Type
  Algorithm : Type
  /-- `jose.ParseSigned`. -/
  parseSigned : Bytes → Except Bytes JWS
  /-- The payload and the signature of a parsed JWS. -/
  payloadOf : JWS → Bytes
  signatureOf : JWS → Bytes
  unmarshalPayload : Bytes → Except Bytes (SignedPolicyCmdPayload Cmd)
  decodeDID : Bytes → Except Bytes (Bytes × KeyType)
  bytesToPubKey : Bytes → KeyType → Except Bytes PubKey
  /-- A secp256k1 key, as the JWS library takes it. -/
  toECDSA : PubKey → Option PubKey
  es256k : Algorithm
  algorithmsForKey : PubKey → Except Bytes (List Algorithm)
  /-- `jwxjws.Verify`. -/
  verifyJWS : Bytes → Algorithm → PubKey → Except Bytes Unit
  /-- The handler of policy commands. -/
  dispatch : PolicyCmdCtx → Option Cmd → Eff σ Bytes Result

variable {Γ : CmdEnv}

/-- The algorithms and the key for a public key. -/
def keyAlgorithms (Γ : CmdEnv) (pubKey : Γ.PubKey) : Outcome Bytes (List Γ.Algorithm × Γ.PubKey) :=
  match Γ.toECDSA pubKey with
  | some key => .ok ([Γ.es256k], key)
  | none =>
    (Outcome.ofExcept (str "failed to retrieve algs for pub key: " ++ ·) (Γ.algorithmsForKey pubKey)) >>= fun algs =>
      .ok (algs, pubKey)

def firstAlgorithm {A : Type} : List A → Outcome Bytes A
  | [] => .panic "index out of range [0] with length 0"
  | a :: _ => .ok a

/-- Check the JWS with the key of the actor named in it, and return what was signed. -/
def verify (Γ : CmdEnv) (jwsStr : Bytes) : Outcome Bytes (SignedPolicyCmdPayload Γ.Cmd) := do
  let jws ← Outcome.ofExcept (str "failed parsing jws: " ++ ·) (Γ.parseSigned jwsStr)
  let payload ← Outcome.ofExcept (str "failed unmarshaling PolicyCmd payload: " ++ ·) (Γ.unmarshalPayload (Γ.payloadOf jws))
  let key ← Outcome.ofExcept (str "failed to resolve actor did: " ++ ·) (Γ.decodeDID payload.actor)
  let pubKey ← Outcome.ofExcept (str "failed to retrieve pub key: " ++ ·) (Γ.bytesToPubKey key.1 key.2)
  let algs ← keyAlgorithms Γ pubKey
  let alg ← firstAlgorithm algs.1
  Outcome.ofExcept (str "could not verify actor signature for jwk: " ++ ·) (Γ.verifyJWS jwsStr alg algs.2)
  pure payload

/-- The last height at which a command is accepted, a 64-bit sum. -/
def SignedPolicyCmdPayload.expireHeight {Cmd : Type} (p : SignedPolicyCmdPayload Cmd) : UInt64 :=
  p.issuedHeight + p.expirationDelta

/-- The command may live that long, and has not expired. -/
def payloadSpec {Cmd : Type} (maxExpirationDelta currentHeight : UInt64) (p : SignedPolicyCmdPayload Cmd) :
    Outcome Bytes Unit := do
  Outcome.require (p.expirationDelta ≤ maxExpirationDelta)
    (str "expiration delta greater than threshold: max " ++ Decimal.dec maxExpirationDelta.toNat ++ str ", given " ++
      Decimal.dec p.expirationDelta.toNat)
  Outcome.require (currentHeight ≤ p.expireHeight)
    (str "PolicyCmdPayload expiration height is stale: current " ++ Decimal.dec currentHeight.toNat ++ str " limit " ++
      Decimal.dec p.expireHeight.toNat)

/-- What was signed, for the encodings that are known. -/
def extractCmd (Γ : CmdEnv) (payload : Bytes) : ContentType → Outcome Bytes (SignedPolicyCmdPayload Γ.Cmd)
  | .jws => verify Γ payload
  | .other _ => .err (str "invalid signed command: cmd " ++ payload ++ str ": unknown variant")

/-- Check a message and return the command in it. -/
def validateAndExtractCmd (Γ : CmdEnv) (maxExpirationDelta : UInt64) (payload : Bytes) (contentType : ContentType)
    (currentHeight : UInt64) : Outcome Bytes (SignedPolicyCmdPayload Γ.Cmd) := do
  let cmd ← (extractCmd Γ payload contentType).mapErr (str "invalid signed command: " ++ ·)
  (payloadSpec maxExpirationDelta currentHeight cmd).mapErr (str "invalid payload: " ++ ·)
  pure cmd

def computePayloadID (jwsPayload : Bytes) : Bytes := Sha256.sum256 jwsPayload

/-- The keeper: the cache of processed commands, the largest allowed lifetime, the state of the handler, and the block. -/
structure CmdState (Γ : CmdEnv) where
  seen : KVStore Bytes Bytes
  maxExpirationDelta : UInt64
  handler : Γ.σ
  block : BlockCtx

/-- Whether a command is in the cache; an entry that cannot be read or has expired is dropped. -/
def hasSeenSignedPolicyCmd (payloadID : Bytes) (currentHeight : UInt64) : Eff (CmdState Γ) Bytes Bool := fun s =>
  match s.seen.get payloadID with
  | none => (.ok false, s)
  | some bz =>
    if bz.length ≠ 8 then (.ok false, { s with seen := s.seen.delete payloadID })
    else if Bytes.ofBigEndian bz < currentHeight.toNat then (.ok false, { s with seen := s.seen.delete payloadID })
    else (.ok true, s)

def markSignedPolicyCmdSeen (payloadID : Bytes) (expireHeight : UInt64) : Eff (CmdState Γ) Bytes Unit := do
  let s ← Eff.read
  Eff.require ((s.seen.get payloadID).isNone = true) (str "signed policy cmd already processed")
  Eff.modify fun s => { s with seen := s.seen.set payloadID (Bytes.bigEndian 8 expireHeight.toNat) }

def callHandler {α : Type} (x : Eff Γ.σ Bytes α) : Eff (CmdState Γ) Bytes α := fun s =>
  ((x s.handler).1, { s with handler := (x s.handler).2 })

/-- The message server: check the command, refuse it if it was processed, remember it, and execute it. -/
def signedPolicyCmd (msg : MsgSignedPolicyCmd) : Eff (CmdState Γ) Bytes Γ.Result := do
  let s ← Eff.read
  let payload ← (Eff.lift (validateAndExtractCmd Γ s.maxExpirationDelta msg.payload msg.contentType s.block.height64)).mapErr
    (str "PolicyCmd: " ++ ·)
  let now ← Eff.lift (Outcome.ofExcept id (timestampFromCtx s.block))
  let id := computePayloadID msg.payload
  let seen ← hasSeenSignedPolicyCmd id s.block.height64
  Eff.require (seen = false) (str "PolicyCmd: PolicyCmdPayload already processed")
  (markSignedPolicyCmdSeen id payload.expireHeight).mapErr (str "PolicyCmd: " ++ ·)
  callHandler (Γ.dispatch ⟨s.block, payload.policyId, payload.actor, now, s.maxExpirationDelta, msg.creator⟩ payload.cmd)

/-! ## Executed at most once -/

/-- What happens to the keeper: a message, a new block, or anything that other messages do to the parameters and to the
state of the handler. -/
inductive CmdStep (Γ : CmdEnv) where
  | signed (msg : MsgSignedPolicyCmd)
  | newBlock (block : BlockCtx)
  | others (maxExpirationDelta : UInt64) (handler : Γ.σ)

def cmdStep (s : CmdState Γ) : CmdStep Γ → CmdState Γ
  | .signed msg => (signedPolicyCmd msg).commit s
  | .newBlock block => { s with block := block }
  | .others maxExpirationDelta handler => { s with maxExpirationDelta := maxExpirationDelta, handler := handler }

/-- What a string carries: the signed bytes and the signature. -/
def signedContent (Γ : CmdEnv) (jwsStr : Bytes) : Option (Bytes × Bytes) :=
  match Γ.parseSigned jwsStr with
  | .ok jws => some (Γ.payloadOf jws, Γ.signatureOf jws)
  | .error _ => none

/-- A message that carries a signed command is dispatched without an error. -/
def dispatched (content : Bytes × Bytes) (s : CmdState Γ) : CmdStep Γ → Bool
  | .signed msg => signedContent Γ msg.payload = some content && (signedPolicyCmd msg s).1.isOk
  | _ => false

/-- A step of a chain with non-decreasing heights, in which a signed command is written as one string only. -/
def InSpelling (content : Bytes × Bytes) (jwsStr : Bytes) (s : CmdState Γ) : CmdStep Γ → Prop
  | .signed msg => signedContent Γ msg.payload = some content → msg.payload = jwsStr
  | .newBlock block => s.block.height ≤ block.height
  | .others .. => True

namespace ReplayAux

/-- A command cannot be executed any more: it has expired, or it is in the cache until it expires. -/
def Spent (jwsStr : Bytes) (s : CmdState Γ) : Prop :=
  ∃ payload, verify Γ jwsStr = .ok payload ∧
    (payload.expireHeight < s.block.height64 ∨
      s.seen.get (computePayloadID jwsStr) = some (Bytes.bigEndian 8 payload.expireHeight.toNat))

theorem ofBigEndian_uint64 (n : UInt64) : Bytes.ofBigEndian (Bytes.bigEndian 8 n.toNat) = n.toNat := by
  rw [Bytes.ofBigEndian_bigEndian]
  exact Nat.mod_eq_of_lt n.toNat_lt

variable {height : UInt64} {id : Bytes} {s t : CmdState Γ} {msg : MsgSignedPolicyCmd} {r : Γ.Result}

theorem validateAndExtractCmd_eq_ok {maxDelta : UInt64} {payload : Bytes} {contentType : ContentType}
    {cmd : SignedPolicyCmdPayload Γ.Cmd} (h : validateAndExtractCmd Γ maxDelta payload contentType height = .ok cmd) :
    verify Γ payload = .ok cmd ∧ height ≤ cmd.expireHeight := by
  unfold validateAndExtractCmd payloadSpec at h
  simp only [bind_eq_ok, mapErr_eq_ok, require_eq_ok, pure_eq_ok] at h
  obtain ⟨cmd', hv, _, ⟨_, -, hheight⟩, rfl⟩ := h
  refine ⟨?_, hheight⟩
  cases contentType with
  | jws => exact hv
  | other n => cases hv

/-- A command that is not found in the cache has no live entry there; at most its own entry is dropped. -/
theorem hasSeen_ok (h : (hasSeenSignedPolicyCmd id height).Succeeds s false t) :
    (∀ bz, s.seen.get id = some bz → bz.length ≠ 8 ∨ Bytes.ofBigEndian bz < height.toNat) ∧
      t.block = s.block ∧ t.handler = s.handler ∧ ∀ k, k ≠ id → t.seen.get k = s.seen.get k := by
  simp only [hasSeenSignedPolicyCmd, Eff.Succeeds] at h
  have hd : ∀ k, k ≠ id → (s.seen.delete id).get k = s.seen.get k := by
    intro k hk
    rw [get_delete, if_neg hk]
  split at h
  · rename_i hnone
    obtain rfl := (Prod.mk.inj h).2
    refine ⟨fun bz hbz => ?_, rfl, rfl, fun _ _ => rfl⟩
    rw [hnone] at hbz
    cases hbz
  · rename_i bz hbz
    have hu : ∀ bz', s.seen.get id = some bz' → bz' = bz := fun bz' h' => Option.some.inj (h'.symm.trans hbz)
    split at h
    · rename_i hl
      obtain rfl := (Prod.mk.inj h).2
      exact ⟨fun bz' h' => .inl (hu bz' h' ▸ hl), rfl, rfl, hd⟩
    · split at h
      · rename_i hold
        obtain rfl := (Prod.mk.inj h).2
        exact ⟨fun bz' h' => .inr (hu bz' h' ▸ hold), rfl, rfl, hd⟩
      · cases h

theorem mark_ok {expireHeight : UInt64} {u : Unit} (h : (markSignedPolicyCmdSeen id expireHeight).Succeeds s u t) :
    t = { s with seen := s.seen.set id (Bytes.bigEndian 8 expireHeight.toNat) } := by
  unfold markSignedPolicyCmdSeen at h
  rw [read_bind_ok, require_bind_ok] at h
  exact modify_ok.1 h.2

theorem callHandler_ok {α : Type} {x : Eff Γ.σ Bytes α} {a : α} (h : (callHandler x).Succeeds s a t) :
    t.seen = s.seen ∧ t.block = s.block ∧ x.Succeeds s.handler a t.handler := by
  obtain ⟨hres, rfl⟩ := Prod.mk.inj h
  exact ⟨rfl, rfl, Prod.ext hres rfl⟩

/-- A message that succeeds carries a command in a JWS that has not expired and is not in the cache; it is executed, and left in
the cache. -/
theorem signedPolicyCmd_ok (h : (signedPolicyCmd msg).Succeeds s r t) :
    ∃ payload, verify Γ msg.payload = .ok payload ∧ s.block.height64 ≤ payload.expireHeight ∧
      (∀ bz, s.seen.get (computePayloadID msg.payload) = some bz →
        bz.length ≠ 8 ∨ Bytes.ofBigEndian bz < s.block.height64.toNat) ∧
      t.block = s.block ∧
      (∃ now, (Γ.dispatch ⟨s.block, payload.policyId, payload.actor, now, s.maxExpirationDelta, msg.creator⟩
        payload.cmd).Succeeds s.handler r t.handler) ∧
      ∀ id, t.seen.get id = if id = computePayloadID msg.payload then some (Bytes.bigEndian 8 payload.expireHeight.toNat)
        else s.seen.get id := by
  unfold signedPolicyCmd at h
  rw [read_bind_ok] at h
  obtain ⟨payload, s₁, hva, h⟩ := bind_ok.1 h
  obtain ⟨hva, hs₁⟩ := lift_ok.1 (mapErr_ok.1 hva)
  obtain ⟨now, s₂, hno, h⟩ := bind_ok.1 h
  obtain ⟨-, hs₂⟩ := lift_ok.1 hno
  subst hs₁ hs₂
  obtain ⟨seen, s₃, hse, h⟩ := bind_ok.1 h
  rw [require_bind_ok] at h
  obtain ⟨rfl, h⟩ := h
  obtain ⟨_, s₄, hm, hcall⟩ := bind_ok.1 h
  obtain ⟨hv, hheight⟩ := validateAndExtractCmd_eq_ok hva
  obtain ⟨hen, hb, hh, hot⟩ := hasSeen_ok hse
  have hs₄ := mark_ok (mapErr_ok.1 hm)
  obtain ⟨hca, hb', hd⟩ := callHandler_ok hcall
  subst hs₄
  refine ⟨payload, hv, hheight, hen, hb'.trans hb, ⟨now, hh ▸ hd⟩, fun id => ?_⟩
  rw [hca, get_set]
  split
  · rfl
  · rename_i hne
    exact hot id hne

theorem spent_of_ok (h : (signedPolicyCmd msg).Succeeds s r t) : Spent msg.payload t := by
  obtain ⟨payload, hv, -, -, -, -, hca⟩ := signedPolicyCmd_ok h
  refine ⟨payload, hv, .inr ?_⟩
  rw [hca, if_pos rfl]

theorem not_ok_of_spent (hs : Spent msg.payload s) : ¬(signedPolicyCmd msg).Succeeds s r t := by
  intro h
  obtain ⟨payload, hv, hheight, hen, -⟩ := signedPolicyCmd_ok h
  obtain ⟨payload', hv', hsp⟩ := hs
  obtain rfl := Outcome.ok.inj (hv.symm.trans hv')
  rcases hsp with hexpired | hca
  · exact absurd hheight (UInt64.not_le.2 hexpired)
  · rcases hen _ hca with hl | hold
    · exact hl (Bytes.length_bigEndian _ _)
    · rw [ofBigEndian_uint64] at hold
      exact absurd hheight (UInt64.not_le.2 (UInt64.lt_iff_toNat_lt.2 hold))

/-- A spent command stays spent. Another message leaves its entry in the cache, unless the two ids collide and the entry has
expired; then the command has expired too. -/
theorem spent_step {content : Bytes × Bytes} {spelling jwsStr : Bytes} {a : CmdStep Γ}
    (ha : InSpelling content spelling s a) (hs : Spent jwsStr s) : Spent jwsStr (cmdStep s a) := by
  obtain ⟨payload, hv, hsp⟩ := hs
  refine ⟨payload, hv, ?_⟩
  cases a with
  | signed msg =>
    rcases commit_cases (signedPolicyCmd msg) s with h | ⟨r, h⟩
    · rw [cmdStep, h]
      exact hsp
    · obtain ⟨other, -, -, hen, hb, -, hcac⟩ := signedPolicyCmd_ok h
      rw [cmdStep, hb, hcac]
      rcases hsp with hexpired | hca
      · exact .inl hexpired
      · split
        · rename_i hid
          rw [hid] at hca
          rcases hen _ hca with hl | hold
          · exact absurd (Bytes.length_bigEndian _ _) hl
          · rw [ofBigEndian_uint64] at hold
            exact .inl (UInt64.lt_iff_toNat_lt.2 hold)
        · exact .inr hca
  | newBlock block =>
    refine hsp.imp (fun hexpired => ?_) id
    have hle : s.block.height64.toNat ≤ block.height64.toNat := by
      rw [BlockCtx.toNat_height64, BlockCtx.toNat_height64]
      exact ha
    exact UInt64.lt_iff_toNat_lt.2 (lt_of_lt_of_le (UInt64.lt_iff_toNat_lt.1 hexpired) hle)
  | others maxDelta handler => exact hsp

end ReplayAux

open ReplayAux

/-- In every run with non-decreasing heights in which a signed command is written as one string only, it is executed at most
once. -/
theorem signed_cmd_at_most_once (s : CmdState Γ) (content : Bytes × Bytes) (jwsStr : Bytes) (steps : List (CmdStep Γ))
    (hsteps : Run.AllSteps cmdStep (InSpelling content jwsStr) s steps) :
    Run.count cmdStep (dispatched content) s steps ≤ 1 := by
  refine Run.count_le_one (fun s a ha hm => ?_) (fun s a ha (hs : Spent jwsStr s) => spent_step ha hs)
    (fun s a ha hs => ?_) hsteps
  · cases a with
    | signed msg =>
      simp only [dispatched, Bool.and_eq_true, decide_eq_true_eq] at hm
      obtain ⟨hco, hok⟩ := hm
      obtain ⟨r, h⟩ := succeeds_of_isOk hok
      rw [cmdStep, h.commit_eq, ← ha hco]
      exact spent_of_ok h
    | newBlock block => cases hm
    | others maxDelta handler => cases hm
  · cases a with
    | signed msg =>
      rw [Bool.eq_false_iff]
      intro hm
      simp only [dispatched, Bool.and_eq_true, decide_eq_true_eq] at hm
      obtain ⟨hco, hok⟩ := hm
      obtain ⟨r, h⟩ := succeeds_of_isOk hok
      rw [← ha hco] at hs
      exact not_ok_of_spent hs h
    | newBlock block => rfl
    | others maxDelta handler => rfl

/-! ## One command in two serialisations -/

section TwoSerialisations

/-- A signed command in the compact serialisation. -/
def compactJWS : Bytes := str "eyJhbGciOiJFZERTQSJ9.cmVnaXN0ZXI.c2ln"

def jsonJWS : Bytes :=
  str "\x7b\"payload\":\"cmVnaXN0ZXI\",\"protected\":\"eyJhbGciOiJFZERTQSJ9\",\"signature\":\"c2ln\"\x7d"

/-- What both carry: the payload and the signature. -/
def registerContent : Bytes × Bytes := (str "register", str "sig")

/-- Libraries that know this command, issued at height 10 for 100 blocks, and a handler that counts what it executes. -/
def registerEnv : CmdEnv where
  σ := Nat
  JWS := Bytes × Bytes
  Cmd := Unit
  Result := Unit
  PubKey := Unit
  Algorithm := Unit
  parseSigned := fun s => if s = compactJWS ∨ s = jsonJWS then .ok registerContent else .error (str "parse error")
  payloadOf := Prod.fst
  signatureOf := Prod.snd
  unmarshalPayload := fun _ => .ok ⟨str "did:key:z6MkrMdkaPQeXfBPbKzY2bXM6A5RKqPqup81x15PGgARYEUZ", 10, 100, str "policy", some ()⟩
  decodeDID := fun _ => .ok ([], .other (str "Ed25519"))
  bytesToPubKey := fun _ _ => .ok ()
  toECDSA := fun _ => none
  es256k := ()
  algorithmsForKey := fun _ => .ok [()]
  verifyJWS := fun s _ _ => if s = compactJWS ∨ s = jsonJWS then .ok () else .error (str "could not verify message")
  dispatch := fun _ _ => Eff.modify (· + 1)

/-- The keeper at height 20, with an empty cache. -/
def emptyCache : CmdState registerEnv where
  seen := KVStore.empty
  maxExpirationDelta := 43200
  handler := (0 : Nat)
  block := ⟨20, by decide, Time.ofUnix 1700000000⟩

def jwsMsg (payload : Bytes) : MsgSignedPolicyCmd := ⟨str "vera1creator", payload, .jws⟩

/-- The command is executed twice, once in each serialisation. -/
theorem signed_cmd_at_most_once_false :
    ∃ (Γ : CmdEnv) (s : CmdState Γ) (content : Bytes × Bytes) (steps : List (CmdStep Γ)),
      Run.count cmdStep (dispatched content) s steps = 2 :=
  ⟨registerEnv, emptyCache, registerContent, [.signed (jwsMsg compactJWS), .signed (jwsMsg jsonJWS)], by decide +kernel⟩

/-- In one serialisation the command is executed at most once, in its block and in a later one. -/
theorem signed_cmd_at_most_once_compact : Run.count cmdStep (dispatched registerContent) emptyCache
      [.signed (jwsMsg compactJWS), .signed (jwsMsg compactJWS), .newBlock ⟨21, by decide, Time.ofUnix 1700000005⟩,
        .signed (jwsMsg compactJWS)] ≤ 1 := by
  refine signed_cmd_at_most_once emptyCache registerContent compactJWS _
    ⟨fun _ => rfl, fun _ => rfl, ?_, fun _ => rfl, trivial⟩
  unfold InSpelling
  decide +kernel

end TwoSerialisations

end Vera.Acp
