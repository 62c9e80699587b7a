import Vera.Lib.Effect
import Vera.Lib.KVStore
import Vera.Lib.Sha256
import Vera.Lib.Time

/-!
# The bulletin

Namespaces with posts and collaborators (`x/bulletin`). Who may do what in a namespace is asked of the `x/acp` module, which
keeps the collaborators of a namespace a second time, as relationships of its policy. The keys of posts and of collaborators
are built from the id of the namespace with every slash in it replaced by a bar.
-/

namespace Vera.Bulletin

open Eff List Outcome
open Bytes (str)

/-! ## Keys -/

/-- `SanitizeKeyPart`: every slash is replaced by a bar. -/
def sanitizeKeyPart (part : Bytes) : Bytes := part.map fun b => if b = 0x2f then 0x7c else b

/-- `PostKey`, after the part that all posts share. -/
def postKey (namespaceId postId : Bytes) : Bytes := sanitizeKeyPart namespaceId ++ 0x2f :: sanitizeKeyPart postId

/-- `CollaboratorKey`, after the part that all collaborators share. -/
def collaboratorKey (namespaceId collaboratorDID : Bytes) : Bytes :=
  sanitizeKeyPart namespaceId ++ 0x2f :: sanitizeKeyPart collaboratorDID

def generatePostId (namespaceId payload : Bytes) : Bytes := Bytes.hex (Sha256.sum256 (namespaceId ++ payload))

/-- `getNamespaceId`: the name with `bulletin/` before it, unless it starts so. -/
def getNamespaceId (ns : Bytes) : Bytes := if Bytes.startsWith (str "bulletin/") ns then ns else str "bulletin/" ++ ns

/-! ## State -/

/-- The commands the module gives to its policy. All are about namespaces, and the one relation is `collaborator`. -/
inductive PolicyCmd where
  | registerObject (namespaceId : Bytes)
  | setRelationship (namespaceId collaboratorDID : Bytes)
  | deleteRelationship (namespaceId collaboratorDID : Bytes)
  deriving Repr, DecidableEq

/-- A request for a page of a listing. -/
structure PageRequest where
  key : Bytes
  offset : Nat
  limit : Nat
  deriving Repr, DecidableEq

/-- What the module uses of others, over a state `σ` of theirs. -/
structure Env where
  σ : Type
  /-- `acpKeeper.IssueDIDFromAccountAddr`. -/
  issueDIDFromAccountAddr : σ → Bytes → Except Bytes Bytes
  /-- `CreateModulePolicy` with the base policy, and the claim of its capability; the id of the policy. -/
  createModulePolicy : Eff σ Bytes Bytes
  /-- Whether the capability of a policy can be fetched. -/
  fetchCapability : σ → Bytes → Except Bytes Unit
  /-- `ModulePolicyCmdForActorDID`: a command to a policy by an actor, with the signer of the transaction. -/
  modulePolicyCmd : Bytes → PolicyCmd → Bytes → Bytes → Eff σ Bytes Unit
  /-- `VerifyAccessRequest` for the permission to post in a namespace. -/
  verifyCreatePost : σ → Bytes → Bytes → Bytes → Except Bytes Bool
  /-- `query.Paginate` on the values of a listing. -/
  paginate : {α : Type} → List α → PageRequest → Except Bytes (List α)

structure Namespace where
  id : Bytes
  ownerDid : Bytes
  creator : Bytes
  createdAt : Time
  deriving Repr, DecidableEq

structure Post where
  id : Bytes
  namespaceId : Bytes
  creatorDid : Bytes
  payload : Bytes
  deriving Repr, DecidableEq

structure Collaborator where
  address : Bytes
  did : Bytes
  namespaceId : Bytes
  deriving Repr, DecidableEq

/-- The errors of the module, and those of other modules it passes on. -/
inductive Error where
  | couldNotEnsurePolicy
  | namespaceAlreadyExists
  | invalidPolicyId
  | namespaceNotFound
  | invalidPostCreator
  | postAlreadyExists
  | collaboratorAlreadyExists
  | collaboratorNotFound
  | other (text : Bytes)
  deriving Repr, DecidableEq

/-- What the module reports of its actions; the payload of a post is reported in base 64. -/
inductive Event where
  | namespaceRegistered (namespaceId ownerDid : Bytes) (createdAt : Time)
  | postCreated (namespaceId postId creatorDid payload artifact : Bytes)
  | collaboratorAdded (namespaceId collaboratorDid addedBy : Bytes)
  | collaboratorRemoved (namespaceId collaboratorDid : Bytes)
  deriving Repr, DecidableEq

/-- The store of `x/bulletin`, with the state of the other modules and the events reported so far. -/
structure State (Γ : Env) where
  env : Γ.σ
  policyId : Option Bytes
  namespaces : KVStore Bytes Namespace
  posts : KVStore Bytes Post
  collaborators : KVStore Bytes Collaborator
  events : List Event

/-- What a call reads of its context. -/
structure Ctx where
  blockTime : Time
  extractedDID : Option Bytes := none
  deriving Repr, DecidableEq

abbrev M (Γ : Env) (α : Type) : Type := Eff (State Γ) Error α

variable {Γ : Env}

def State.init (env : Γ.σ) : State Γ := ⟨env, none, KVStore.empty, KVStore.empty, KVStore.empty, []⟩

def emit (e : Event) : M Γ Unit := Eff.modify fun s => { s with events := s.events ++ [e] }

/-- A call of another module; what becomes of its error is for the caller to say. -/
def callEnv {α : Type} (wrapErr : Bytes → Error) (x : Eff Γ.σ Bytes α) : M Γ α := fun s =>
  ((x s.env).1.mapErr wrapErr, { s with env := (x s.env).2 })

/-- `GetActorDID`: the DID of the transaction, or else that of the account. -/
def getActorDID (ctx : Ctx) (accountAddr : Bytes) : M Γ Bytes :=
  Eff.query fun s =>
    match ctx.extractedDID with
    | some (b :: did) => .ok (b :: did)
    | _ => Outcome.ofExcept .other (Γ.issueDIDFromAccountAddr s.env accountAddr)

/-- `GetPolicyId`, with an error for an empty id. -/
def requirePolicyId : M Γ Bytes :=
  Eff.query fun s =>
    match s.policyId with
    | none | some [] => .err .invalidPolicyId
    | some policyId => .ok policyId

/-- `EnsurePolicy`; its errors are replaced by one. -/
def ensurePolicy : M Γ Bytes := do
  let s ← Eff.read
  match s.policyId with
  | some policyId => pure policyId
  | none => do
    let policyId ← callEnv (fun _ => .couldNotEnsurePolicy) Γ.createModulePolicy
    Eff.modify fun s => { s with policyId := some policyId }
    pure policyId

def State.hasNamespace (s : State Γ) (namespaceId : Bytes) : Bool := (s.namespaces.get namespaceId).isSome

def State.getPost (s : State Γ) (namespaceId postId : Bytes) : Option Post := s.posts.get (postKey namespaceId postId)

def State.getCollaborator (s : State Γ) (namespaceId collaboratorDID : Bytes) : Option Collaborator :=
  s.collaborators.get (collaboratorKey namespaceId collaboratorDID)

def requireNamespace (namespaceId : Bytes) : M Γ Unit := do
  let s ← Eff.read
  Eff.require (s.hasNamespace namespaceId = true) .namespaceNotFound

/-- Give a command to the policy, with its capability fetched. -/
def policyCmd (policyId : Bytes) (cmd : PolicyCmd) (actorDID signer : Bytes) : M Γ Unit := do
  Eff.query fun s => Outcome.ofExcept .other (Γ.fetchCapability s.env policyId)
  callEnv .other (Γ.modulePolicyCmd policyId cmd actorDID signer)

/-! ## Messages -/

def registerNamespace (ctx : Ctx) (creator ns : Bytes) : M Γ Unit := do
  let policyId ← ensurePolicy
  let s ← Eff.read
  Eff.require (s.hasNamespace (getNamespaceId ns) = false) .namespaceAlreadyExists
  let ownerDID ← getActorDID ctx creator
  policyCmd policyId (.registerObject (getNamespaceId ns)) ownerDID creator
  Eff.modify fun s => { s with
    namespaces := s.namespaces.set (getNamespaceId ns) ⟨getNamespaceId ns, ownerDID, creator, ctx.blockTime⟩ }
  emit (.namespaceRegistered (getNamespaceId ns) ownerDID ctx.blockTime)

def createPost (ctx : Ctx) (creator ns payload artifact : Bytes) : M Γ Unit := do
  let policyId ← requirePolicyId
  requireNamespace (getNamespaceId ns)
  let creatorDID ← getActorDID ctx creator
  let hasPermission ← Eff.query fun s =>
    Outcome.ofExcept .other (Γ.verifyCreatePost s.env policyId (getNamespaceId ns) creatorDID)
  Eff.require (hasPermission = true) .invalidPostCreator
  let postId := generatePostId (getNamespaceId ns) payload
  let s ← Eff.read
  Eff.require ((s.getPost (getNamespaceId ns) postId).isNone = true) .postAlreadyExists
  Eff.modify fun s => { s with
    posts := s.posts.set (postKey (getNamespaceId ns) postId) ⟨postId, getNamespaceId ns, creatorDID, payload⟩ }
  emit (.postCreated (getNamespaceId ns) postId creatorDID payload artifact)

def addCollaborator (ctx : Ctx) (creator ns collaborator : Bytes) : M Γ Unit := do
  let policyId ← requirePolicyId
  requireNamespace (getNamespaceId ns)
  let ownerDID ← getActorDID ctx creator
  let collaboratorDID ← Eff.query fun s => Outcome.ofExcept .other (Γ.issueDIDFromAccountAddr s.env collaborator)
  let s ← Eff.read
  Eff.require ((s.getCollaborator (getNamespaceId ns) collaboratorDID).isNone = true) .collaboratorAlreadyExists
  policyCmd policyId (.setRelationship (getNamespaceId ns) collaboratorDID) ownerDID creator
  Eff.modify fun s => { s with
    collaborators := s.collaborators.set (collaboratorKey (getNamespaceId ns) collaboratorDID)
      ⟨collaborator, collaboratorDID, getNamespaceId ns⟩ }
  emit (.collaboratorAdded (getNamespaceId ns) collaboratorDID ownerDID)

def removeCollaborator (ctx : Ctx) (creator ns collaborator : Bytes) : M Γ Unit := do
  let policyId ← requirePolicyId
  requireNamespace (getNamespaceId ns)
  let ownerDID ← getActorDID ctx creator
  let collaboratorDID ← Eff.query fun s => Outcome.ofExcept .other (Γ.issueDIDFromAccountAddr s.env collaborator)
  let s ← Eff.read
  Eff.require ((s.getCollaborator (getNamespaceId ns) collaboratorDID).isSome = true) .collaboratorNotFound
  policyCmd policyId (.deleteRelationship (getNamespaceId ns) collaboratorDID) ownerDID creator
  Eff.modify fun s => { s with
    collaborators := s.collaborators.delete (collaboratorKey (getNamespaceId ns) collaboratorDID) }
  emit (.collaboratorRemoved (getNamespaceId ns) collaboratorDID)

/-- The messages of the module; a post may come with an artifact. -/
inductive Msg where
  | registerNamespace (ctx : Ctx) (creator ns : Bytes)
  | createPost (ctx : Ctx) (creator ns payload artifact : Bytes)
  | addCollaborator (ctx : Ctx) (creator ns collaborator : Bytes)
  | removeCollaborator (ctx : Ctx) (creator ns collaborator : Bytes)
  deriving Repr, DecidableEq

def Msg.handle : Msg → M Γ Unit
  | .registerNamespace ctx creator ns => Bulletin.registerNamespace ctx creator ns
  | .createPost ctx creator ns payload artifact => Bulletin.createPost ctx creator ns payload artifact
  | .addCollaborator ctx creator ns collaborator => Bulletin.addCollaborator ctx creator ns collaborator
  | .removeCollaborator ctx creator ns collaborator => Bulletin.removeCollaborator ctx creator ns collaborator

/-- The state after a message; one that fails is undone. -/
def step (s : State Γ) (msg : Msg) : State Γ := msg.handle.commit s

/-! ## Listings -/

/-- The values of a store under the keys of one namespace, in the order of the keys. -/
def listing {V : Type} (store : KVStore Bytes V) (namespaceId : Bytes) : List V :=
  (store.entries.filter fun e => Bytes.startsWith (sanitizeKeyPart namespaceId ++ [0x2f]) e.1).map Prod.snd

def State.getNamespacePosts (s : State Γ) (namespaceId : Bytes) : List Post := listing s.posts namespaceId

def State.namespacePosts (s : State Γ) (ns : Bytes) (page : PageRequest) : Except Error (List Post) :=
  if s.hasNamespace (getNamespaceId ns) then
    (Γ.paginate (listing s.posts (getNamespaceId ns)) page).mapError .other
  else .error .namespaceNotFound

def State.namespaceCollaborators (s : State Γ) (ns : Bytes) (page : PageRequest) : Except Error (List Collaborator) :=
  if s.hasNamespace (getNamespaceId ns) then
    (Γ.paginate (listing s.collaborators (getNamespaceId ns)) page).mapError .other
  else .error .namespaceNotFound

/-! ## Keys and listings -/

theorem slash_not_mem_sanitizeKeyPart (part : Bytes) : (0x2f : UInt8) ∉ sanitizeKeyPart part := by
  intro h
  obtain ⟨b, -, hb⟩ := mem_map.1 h
  split at hb
  · exact absurd hb (by decide)
  · contradiction

theorem startsWith_key_iff (n m part : Bytes) :
    Bytes.startsWith (sanitizeKeyPart n ++ [0x2f]) (sanitizeKeyPart m ++ 0x2f :: sanitizeKeyPart part) = true ↔
      sanitizeKeyPart n = sanitizeKeyPart m := by
  unfold Bytes.startsWith
  rw [ isPrefixOf_iff_prefix]
  constructor
  · rintro ⟨rest, hrest⟩
    rw [append_assoc, singleton_append] at hrest
    exact (Bytes.append_sep_inj (slash_not_mem_sanitizeKeyPart n) (slash_not_mem_sanitizeKeyPart m) hrest).1
  · intro h
    exact ⟨sanitizeKeyPart part, by rw [h, append_assoc, singleton_append]⟩

theorem mem_listing {V : Type} {store : KVStore Bytes V} {n : Bytes} {v : V} :
    v ∈ listing store n ↔ ∃ k, store.get k = some v ∧ Bytes.startsWith (sanitizeKeyPart n ++ [0x2f]) k = true := by
  unfold listing
  rw [mem_map]
  constructor
  · rintro ⟨⟨k, v⟩, he, rfl⟩
    obtain ⟨hmem, hke⟩ := mem_filter.1 he
    exact ⟨k, store.mem_entries.1 hmem, hke⟩
  · rintro ⟨k, hget, hke⟩
    exact ⟨(k, v), mem_filter.2 ⟨store.mem_entries.2 hget, hke⟩, rfl⟩

theorem key_inj {n m x y : Bytes}
    (h : sanitizeKeyPart n ++ 0x2f :: sanitizeKeyPart x = sanitizeKeyPart m ++ 0x2f :: sanitizeKeyPart y) :
    sanitizeKeyPart n = sanitizeKeyPart m ∧ sanitizeKeyPart x = sanitizeKeyPart y :=
  Bytes.append_sep_inj (slash_not_mem_sanitizeKeyPart n) (slash_not_mem_sanitizeKeyPart m) h

/-! ## What the messages do when they succeed -/

variable {α : Type} {s t : State Γ} {a : α} {policyId signer creator ns collaborator : Bytes} {u : Unit}
  {f : Unit → M Γ α}

theorem callEnv_ok {wrapErr : Bytes → Error} {x : Eff Γ.σ Bytes α} :
    (callEnv wrapErr x).Succeeds s a t ↔ ∃ env, x.Succeeds s.env a env ∧ t = { s with env := env } := by
  simp only [callEnv, Eff.Succeeds]
  generalize x s.env = r
  obtain ⟨o, env⟩ := r
  cases o with
  | ok b => simp [Outcome.mapErr, eq_comm]
  | err e => simp [Outcome.mapErr]
  | panic m => simp [Outcome.mapErr]

theorem policyCmd_ok {actorDID : Bytes} {cmd : PolicyCmd} : (policyCmd policyId cmd actorDID signer).Succeeds s u t ↔
      Γ.fetchCapability s.env policyId = .ok () ∧
        ∃ env, (Γ.modulePolicyCmd policyId cmd actorDID signer).Succeeds s.env u env ∧ t = { s with env := env } := by
  unfold policyCmd
  rw [query_bind_ok]
  constructor
  · rintro ⟨_, hf, h⟩
    exact ⟨ofExcept_eq_ok.1 hf, callEnv_ok.1 h⟩
  · rintro ⟨hf, h⟩
    exact ⟨(), ofExcept_eq_ok.2 hf, callEnv_ok.2 h⟩

theorem requireNamespace_bind_ok {namespaceId : Bytes} :
    (requireNamespace namespaceId >>= f).Succeeds s a t ↔ s.hasNamespace namespaceId = true ∧ (f ()).Succeeds s a t := by
  unfold requireNamespace
  rw [bind_ok]
  constructor
  · rintro ⟨_, _, h, hf⟩
    rw [read_bind_ok, require_ok] at h
    obtain ⟨hns, rfl⟩ := h
    exact ⟨hns, hf⟩
  · rintro ⟨hns, hf⟩
    exact ⟨(), s, by rw [read_bind_ok, require_ok]; exact ⟨hns, rfl⟩, hf⟩

theorem getActorDID_bind_ok {ctx : Ctx} {accountAddr : Bytes} {f : Bytes → M Γ α} :
    (getActorDID ctx accountAddr >>= f).Succeeds s a t ↔
      ∃ did, (getActorDID ctx accountAddr s).1 = .ok did ∧ (f did).Succeeds s a t := query_bind_ok

theorem policyCmd_bind_ok {actorDID : Bytes} {cmd : PolicyCmd}
    (h : (policyCmd policyId cmd actorDID signer >>= f).Succeeds s a t) :
    ∃ env, (Γ.modulePolicyCmd policyId cmd actorDID signer).Succeeds s.env () env ∧
      (f ()).Succeeds { s with env := env } a t := by
  obtain ⟨_, s₁, hcmd, hf⟩ := bind_ok.1 h
  obtain ⟨-, env, hen, rfl⟩ := policyCmd_ok.1 hcmd
  exact ⟨env, hen, hf⟩

theorem requirePolicyId_bind_ok {f : Bytes → M Γ α}
    (h : (requirePolicyId >>= f).Succeeds s a t) : ∃ policyId, s.policyId = some policyId ∧ (f policyId).Succeeds s a t := by
  obtain ⟨policyId, hpolicy, hf⟩ := query_bind_ok.1 h
  refine ⟨policyId, ?_, hf⟩
  split at hpolicy
  · cases hpolicy
  · cases hpolicy
  · rename_i hid
    rw [hid, Outcome.ok.inj hpolicy]

theorem ensurePolicy_ok (h : ensurePolicy.Succeeds s policyId t) : (s.policyId = some policyId ∧ t = s) ∨
      s.policyId = none ∧ ∃ env, Γ.createModulePolicy.Succeeds s.env policyId env ∧
        t = { s with env := env, policyId := some policyId } := by
  unfold ensurePolicy at h
  rw [read_bind_ok] at h
  cases hpolicy : s.policyId with
  | some id =>
    rw [hpolicy] at h
    obtain ⟨rfl, rfl⟩ := pure_ok.1 h
    exact .inl ⟨rfl, rfl⟩
  | none =>
    rw [hpolicy] at h
    obtain ⟨id, s₁, hcr, h⟩ := bind_ok.1 h
    obtain ⟨env, hen, rfl⟩ := callEnv_ok.1 hcr
    rw [modify_bind_ok, pure_ok] at h
    obtain ⟨rfl, rfl⟩ := h
    exact .inr ⟨rfl, env, hen, rfl⟩

theorem registerNamespace_ok {ctx : Ctx} (h : (registerNamespace ctx creator ns).Succeeds s u t) :
    ∃ policyId s₁ ownerDID env event, ensurePolicy.Succeeds s policyId s₁ ∧ s₁.hasNamespace (getNamespaceId ns) = false ∧
      (Γ.modulePolicyCmd policyId (.registerObject (getNamespaceId ns)) ownerDID creator).Succeeds s₁.env () env ∧
      t = { s₁ with
        env := env
        namespaces := s₁.namespaces.set (getNamespaceId ns) ⟨getNamespaceId ns, ownerDID, creator, ctx.blockTime⟩
        events := s₁.events ++ [event] } := by
  unfold registerNamespace at h
  obtain ⟨policyId, s₁, hen, h⟩ := bind_ok.1 h
  rw [read_bind_ok, require_bind_ok] at h
  obtain ⟨hnew, h⟩ := h
  rw [getActorDID_bind_ok] at h
  obtain ⟨ownerDID, -, h⟩ := h
  obtain ⟨env, henv, h⟩ := policyCmd_bind_ok h
  rw [modify_bind_ok] at h
  exact ⟨policyId, s₁, ownerDID, env, _, hen, hnew, henv, modify_ok.1 h⟩

theorem createPost_ok {ctx : Ctx} {payload artifact : Bytes}
    (h : (createPost ctx creator ns payload artifact).Succeeds s u t) :
    ∃ creatorDID event, s.policyId ≠ none ∧ (getActorDID ctx creator s).1 = .ok creatorDID ∧
      s.getPost (getNamespaceId ns) (generatePostId (getNamespaceId ns) payload) = none ∧
      t = { s with
        posts := s.posts.set (postKey (getNamespaceId ns) (generatePostId (getNamespaceId ns) payload))
          ⟨generatePostId (getNamespaceId ns) payload, getNamespaceId ns, creatorDID, payload⟩
        events := s.events ++ [event] } := by
  unfold createPost at h
  obtain ⟨policyId, hpolicy, h⟩ := requirePolicyId_bind_ok h
  rw [requireNamespace_bind_ok, getActorDID_bind_ok] at h
  obtain ⟨-, creatorDID, hd, h⟩ := h
  rw [query_bind_ok] at h
  obtain ⟨hasPermission, -, h⟩ := h
  rw [require_bind_ok, read_bind_ok, require_bind_ok, modify_bind_ok] at h
  obtain ⟨-, hnone, h⟩ := h
  exact ⟨creatorDID, _, hpolicy ▸ Option.some_ne_none policyId, hd, Option.isNone_iff_eq_none.1 hnone, modify_ok.1 h⟩

theorem addCollaborator_ok {ctx : Ctx} (h : (addCollaborator ctx creator ns collaborator).Succeeds s u t) :
    ∃ policyId ownerDID did env event, s.policyId = some policyId ∧ s.hasNamespace (getNamespaceId ns) = true ∧
      Γ.issueDIDFromAccountAddr s.env collaborator = .ok did ∧ s.getCollaborator (getNamespaceId ns) did = none ∧
      (Γ.modulePolicyCmd policyId (.setRelationship (getNamespaceId ns) did) ownerDID creator).Succeeds s.env () env ∧
      t = { s with
        env := env
        collaborators := s.collaborators.set (collaboratorKey (getNamespaceId ns) did) ⟨collaborator, did, getNamespaceId ns⟩
        events := s.events ++ [event] } := by
  unfold addCollaborator at h
  obtain ⟨policyId, hpolicy, h⟩ := requirePolicyId_bind_ok h
  rw [requireNamespace_bind_ok, getActorDID_bind_ok] at h
  obtain ⟨hns, ownerDID, -, h⟩ := h
  rw [query_bind_ok] at h
  obtain ⟨did, hd, h⟩ := h
  rw [read_bind_ok, require_bind_ok] at h
  obtain ⟨hnone, h⟩ := h
  obtain ⟨env, hen, h⟩ := policyCmd_bind_ok h
  rw [modify_bind_ok] at h
  exact ⟨policyId, ownerDID, did, env, _, hpolicy, hns, ofExcept_eq_ok.1 hd, Option.isNone_iff_eq_none.1 hnone, hen,
    modify_ok.1 h⟩

theorem removeCollaborator_ok {ctx : Ctx} (h : (removeCollaborator ctx creator ns collaborator).Succeeds s u t) :
    ∃ policyId ownerDID did env event, s.policyId = some policyId ∧ s.hasNamespace (getNamespaceId ns) = true ∧
      Γ.issueDIDFromAccountAddr s.env collaborator = .ok did ∧
      (s.getCollaborator (getNamespaceId ns) did).isSome = true ∧
      (Γ.modulePolicyCmd policyId (.deleteRelationship (getNamespaceId ns) did) ownerDID creator).Succeeds s.env () env ∧
      t = { s with
        env := env
        collaborators := s.collaborators.delete (collaboratorKey (getNamespaceId ns) did)
        events := s.events ++ [event] } := by
  unfold removeCollaborator at h
  obtain ⟨policyId, hpolicy, h⟩ := requirePolicyId_bind_ok h
  rw [requireNamespace_bind_ok, getActorDID_bind_ok] at h
  obtain ⟨hns, ownerDID, -, h⟩ := h
  rw [query_bind_ok] at h
  obtain ⟨did, hd, h⟩ := h
  rw [read_bind_ok, require_bind_ok] at h
  obtain ⟨hs, h⟩ := h
  obtain ⟨env, hen, h⟩ := policyCmd_bind_ok h
  rw [modify_bind_ok] at h
  exact ⟨policyId, ownerDID, did, env, _, hpolicy, hns, ofExcept_eq_ok.1 hd, hs, hen, modify_ok.1 h⟩

end Vera.Bulletin
