import Vera.Bulletin.Collaborators
import Vera.Lib.Restore

/-!
# The genesis of the bulletin

`InitGenesis` and `ExportGenesis` (`x/bulletin/module/genesis.go`). The import makes a new policy and gives it the namespaces and the
collaborators again, in the name of the owners: each namespace is registered for its owner, and each collaborator is added by the
owner of the namespace. The parameters of the module have no fields.
-/

namespace Vera.Bulletin

open Eff KVStore List
open Bytes (str)

variable {Γ : Env}

/-! ## Export and import -/

/-- The genesis of the module. -/
structure GenesisState where
  policyId : Bytes
  namespaces : List Namespace
  collaborators : List Collaborator
  posts : List Post
  deriving Repr, DecidableEq

def State.genesisState (s : State Γ) : GenesisState where
  policyId := s.policyId.getD []
  namespaces := s.namespaces.entries.map Prod.snd
  collaborators := s.collaborators.entries.map Prod.snd
  posts := s.posts.entries.map Prod.snd

def exportGenesis : M Γ GenesisState := Eff.query fun s => .ok s.genesisState

def setNamespace (record : Namespace) : M Γ Unit := Eff.modify fun s => { s with namespaces := s.namespaces.set record.id record }

def setCollaborator (c : Collaborator) : M Γ Unit :=
  Eff.modify fun s => { s with collaborators := s.collaborators.set (collaboratorKey c.namespaceId c.did) c }

def setPost (post : Post) : M Γ Unit :=
  Eff.modify fun s => { s with posts := s.posts.set (postKey post.namespaceId post.id) post }

def initNamespace (policyId : Bytes) (record : Namespace) : M Γ Unit := do
  (policyCmd policyId (.registerObject record.id) record.ownerDid record.creator).must
  setNamespace record

/-- `AddCollaborator` of a collaborator by the owner of the namespace, and the record of the collaborator; a namespace that is not
there is a nil pointer. -/
def initCollaborator (policyId : Bytes) (c : Collaborator) : M Γ Unit := do
  let s ← Eff.read
  match s.namespaces.get c.namespaceId with
  | none => Eff.crash "invalid memory address or nil pointer dereference"
  | some record => do
    (Eff.require ((s.getCollaborator c.namespaceId c.did).isNone = true) .collaboratorAlreadyExists : M Γ Unit).must
    (policyCmd policyId (.setRelationship c.namespaceId c.did) record.ownerDid c.address).must
    setCollaborator c

/-- `InitGenesis`: without the id of a policy nothing is imported. -/
def initGenesis (g : GenesisState) : M Γ Unit :=
  if g.policyId = [] then pure ()
  else do
    let policyId ← ensurePolicy.must
    Eff.modify fun s => { s with policyId := some policyId }
    Eff.forEach g.namespaces (initNamespace policyId)
    Eff.forEach g.collaborators (initCollaborator policyId)
    Eff.forEach g.posts setPost

/-! ## What is asked of the engine -/

/-- The engine registers objects and relationships as requested, and lets the owner and the collaborators of a namespace post. Who was
accepted once, as an actor or as a collaborator, is accepted again. -/
structure Registrar (Γ : Env) extends Engine Γ where
  /-- Whether an actor owns a namespace in a policy. -/
  owns : Γ.σ → Bytes → Bytes → Bytes → Prop
  /-- The DIDs that the engine knows how to read. -/
  valid : Bytes → Prop
  empty : Γ.σ → Prop
  creates : ∀ {env}, empty env → ∃ p env', Γ.createModulePolicy.Succeeds env p env'
  created : ∀ {env env' p}, Γ.createModulePolicy.Succeeds env p env' →
    (∀ n d, ¬owns env' p n d) ∧ Γ.fetchCapability env' p = .ok ()
  registered : ∀ {env env' p n actor signer}, (Γ.modulePolicyCmd p (.registerObject n) actor signer).Succeeds env () env' →
    valid actor ∧ ∀ m d, owns env' p m d ↔ owns env p m d ∨ (m = n ∧ d = actor)
  related : ∀ {env env' p n d actor signer}, (Γ.modulePolicyCmd p (.setRelationship n d) actor signer).Succeeds env () env' →
    valid d ∧ ∀ m e, owns env' p m e ↔ owns env p m e
  unrelated : ∀ {env env' p n d actor signer}, (Γ.modulePolicyCmd p (.deleteRelationship n d) actor signer).Succeeds env () env' →
    ∀ m e, owns env' p m e ↔ owns env p m e
  capability : ∀ {env env' p cmd actor signer}, (Γ.modulePolicyCmd p cmd actor signer).Succeeds env () env' →
    Γ.fetchCapability env p = .ok () → Γ.fetchCapability env' p = .ok ()
  registers : ∀ {env p n actor} signer, Γ.fetchCapability env p = .ok () → valid actor → (∀ d, ¬owns env p n d) →
    ∃ env', (Γ.modulePolicyCmd p (.registerObject n) actor signer).Succeeds env () env'
  relates : ∀ {env p n d actor} signer, Γ.fetchCapability env p = .ok () → valid d → owns env p n actor →
    ∃ env', (Γ.modulePolicyCmd p (.setRelationship n d) actor signer).Succeeds env () env'
  verifies : ∀ env p n d, Γ.verifyCreatePost env p n d = .ok true ↔ owns env p n d ∨ holds env p n d

def State.MayPost (s : State Γ) (n d : Bytes) : Prop := ∃ p, s.policyId = some p ∧ Γ.verifyCreatePost s.env p n d = .ok true

/-- The namespace a message names has no bar. -/
def Msg.NoBar : Msg → Prop
  | .registerNamespace _ _ ns | .createPost _ _ ns _ _ | .addCollaborator _ _ ns _ | .removeCollaborator _ _ ns _ => 0x7c ∉ ns

instance Msg.NoBar.decidable (msg : Msg) : Decidable msg.NoBar :=
  match msg with
  | .registerNamespace _ _ ns | .createPost _ _ ns _ _ | .addCollaborator _ _ ns _ | .removeCollaborator _ _ ns _ =>
    inferInstanceAs (Decidable (0x7c ∉ ns))

/-- The engine lets exactly the owners of the namespaces own them. -/
def Registrar.Owned (R : Registrar Γ) (env : Γ.σ) (p : Bytes) (namespaces : KVStore Bytes Namespace) : Prop :=
  ∀ n d, R.owns env p n d ↔ ∃ record, namespaces.get n = some record ∧ record.ownerDid = d

theorem Registrar.Owned.set {R : Registrar Γ} {env env' : Γ.σ} {p n signer : Bytes} {namespaces : KVStore Bytes Namespace}
    {record : Namespace} (h : R.Owned env p namespaces) (hnew : namespaces.get n = none)
    (hcmd : (Γ.modulePolicyCmd p (.registerObject n) record.ownerDid signer).Succeeds env () env') :
    R.Owned env' p (namespaces.set n record) := by
  intro m d
  rw [(R.registered hcmd).2, h, get_set]
  split
  · rename_i hm
    subst hm
    rw [hnew]
    simp [eq_comm]
  · rename_i hm
    simp [hm]

/-! ## What a run leaves -/

theorem sanitizeKeyPart_inj {a b : Bytes} (ha : 0x7c ∉ a) (hb : 0x7c ∉ b) (h : sanitizeKeyPart a = sanitizeKeyPart b) : a = b := by
  induction a generalizing b with
  | nil =>
    cases b with
    | nil => rfl
    | cons y b => cases h
  | cons x a ih =>
    cases b with
    | nil => cases h
    | cons y b =>
      simp only [sanitizeKeyPart, map_cons, List.cons.injEq] at h
      simp only [mem_cons, not_or] at ha hb
      have hxy : x = y := by grind
      rw [hxy, ih ha.2 hb.2 h.2]

theorem getNamespaceId_noBar {ns : Bytes} (h : 0x7c ∉ ns) : 0x7c ∉ getNamespaceId ns := by
  unfold getNamespaceId
  split
  · exact h
  · intro hmem
    rcases mem_append.1 hmem with hb | hns
    · exact absurd hb (by decide)
    · exact h hns

/-- What a run leaves, besides records and relationships that are in step: the namespaces and the posts are stored under their keys,
each namespace belongs to its owner, and all of it hangs on a policy. -/
structure Restorable (R : Registrar Γ) (s : State Γ) : Prop where
  inStep : InStep R.toEngine s
  namespaces : ∀ n record, s.namespaces.get n = some record →
    record.id = n ∧ R.valid record.ownerDid ∧ 0x7c ∉ n ∧ s.policyId ≠ none
  owners : ∀ p, s.policyId = some p → ∀ n d, R.owns s.env p n d ↔ ∃ record, s.namespaces.get n = some record ∧ record.ownerDid = d
  collaborators : ∀ k c, s.collaborators.get k = some c → R.valid c.did
  posts : ∀ k post, s.posts.get k = some post → k = postKey post.namespaceId post.id ∧ s.policyId ≠ none

theorem restorable_init (R : Registrar Γ) (env : Γ.σ) : Restorable R (State.init env) := by
  refine ⟨inStep_init R.toEngine env, ?_, ?_, ?_, ?_⟩
  · intro n record h
    cases h
  · intro p h
    cases h
  · intro k c h
    cases h
  · intro k post h
    cases h

section Step

variable {R : Registrar Γ} {s t : State Γ} {u : Unit} {ctx : Ctx}

variable {msg : Msg} {creator ns collaborator : Bytes}

theorem Restorable.noClash (h : Restorable R s) (hb : msg.NoBar) : msg.NoClash s := by
  cases msg with
  | registerNamespace ctx creator ns =>
    intro m hm hs
    obtain ⟨record, hrecord⟩ := Option.isSome_iff_exists.1 hm
    exact sanitizeKeyPart_inj (h.namespaces m record hrecord).2.2.1 (getNamespaceId_noBar hb) hs
  | createPost | addCollaborator | removeCollaborator => trivial

theorem Restorable.ensurePolicy {p : Bytes} (h : Restorable R s) (hen : ensurePolicy.Succeeds s p t) :
    Restorable R t ∧ t.policyId = some p := by
  obtain ⟨hin, hp, -⟩ := h.inStep.ensurePolicy hen
  rcases ensurePolicy_ok hen with ⟨-, rfl⟩ | ⟨hnone, env, hcr, rfl⟩
  · exact ⟨h, hp⟩
  · -- with no policy there is nothing yet
    have hno : ∀ n record, ¬s.namespaces.get n = some record := fun n record hrecord => (h.namespaces n record hrecord).2.2.2 hnone
    refine ⟨⟨hin, fun n record hrecord => absurd hrecord (hno n record), ?_, h.collaborators, ?_⟩, hp⟩
    · intro p' hp' n d
      obtain rfl : p = p' := Option.some.inj hp'
      refine ⟨fun howns => absurd howns ((R.created hcr).1 n d), ?_⟩
      rintro ⟨record, hrecord, -⟩
      exact absurd hrecord (hno n record)
    · intro k post hpo
      exact absurd hnone (h.posts k post hpo).2

theorem Restorable.registerNamespace (h : Restorable R s) (hb : 0x7c ∉ ns)
    (hcall : (registerNamespace ctx creator ns).Succeeds s u t) : Restorable R t := by
  have hcl : Msg.NoClash s (.registerNamespace ctx creator ns) := h.noClash hb
  have hin := h.inStep.registerNamespace hcl hcall
  obtain ⟨p, s₁, ownerDID, env, event, hen, hnew, hcmd, rfl⟩ := registerNamespace_ok hcall
  obtain ⟨h₁, hp⟩ := h.ensurePolicy hen
  have hs : s₁.policyId ≠ none := hp ▸ Option.some_ne_none p
  obtain ⟨hv, howns⟩ := R.registered hcmd
  refine ⟨hin, All.set h₁.namespaces ⟨rfl, hv, getNamespaceId_noBar hb, hs⟩, ?_, h₁.collaborators, h₁.posts⟩
  · intro p' hp'
    obtain rfl : p = p' := Option.some.inj (hp.symm.trans hp')
    have hnone : s₁.namespaces.get (getNamespaceId ns) = none := by
      rw [← Option.not_isSome_iff_eq_none]
      exact Bool.not_eq_true _ ▸ hnew
    exact Registrar.Owned.set (h₁.owners p hp) hnone hcmd

theorem Restorable.addCollaborator (h : Restorable R s)
    (hcall : (addCollaborator ctx creator ns collaborator).Succeeds s u t) : Restorable R t := by
  have hin := h.inStep.addCollaborator hcall
  obtain ⟨p, ownerDID, did, env, event, hp, hns, his, hnone, hcmd, rfl⟩ := addCollaborator_ok hcall
  obtain ⟨hv, howns⟩ := R.related hcmd
  refine ⟨hin, h.namespaces, ?_, All.set h.collaborators hv, h.posts⟩
  intro p' hp' n d
  obtain rfl : p = p' := Option.some.inj (hp.symm.trans hp')
  rw [howns]
  exact h.owners p hp n d

theorem Restorable.removeCollaborator (h : Restorable R s)
    (hcall : (removeCollaborator ctx creator ns collaborator).Succeeds s u t) : Restorable R t := by
  have hin := h.inStep.removeCollaborator hcall
  obtain ⟨p, ownerDID, did, env, event, hp, hns, his, hs, hcmd, rfl⟩ := removeCollaborator_ok hcall
  refine ⟨hin, h.namespaces, ?_, All.delete h.collaborators _, h.posts⟩
  intro p' hp' n d
  obtain rfl : p = p' := Option.some.inj (hp.symm.trans hp')
  rw [R.unrelated hcmd]
  exact h.owners p hp n d

theorem Restorable.createPost {payload artifact : Bytes} (h : Restorable R s)
    (hcall : (createPost ctx creator ns payload artifact).Succeeds s u t) : Restorable R t := by
  have hin := h.inStep.createPost hcall
  obtain ⟨creatorDID, event, hpolicy, -, -, rfl⟩ := createPost_ok hcall
  exact ⟨hin, h.namespaces, h.owners, h.collaborators, All.set h.posts ⟨rfl, hpolicy⟩⟩

theorem Restorable.step (h : Restorable R s) (hb : msg.NoBar) : Restorable R (step s msg) := by
  refine commit_of_ok (P := Restorable R) h fun u t hcall => ?_
  cases msg with
  | registerNamespace ctx creator ns => exact h.registerNamespace hb hcall
  | createPost ctx creator ns payload artifact => exact h.createPost hcall
  | addCollaborator ctx creator ns collaborator => exact h.addCollaborator hcall
  | removeCollaborator ctx creator ns collaborator => exact h.removeCollaborator hcall

end Step

theorem restorable_run (R : Registrar Γ) (env : Γ.σ) {msgs : List Msg} (hb : ∀ msg ∈ msgs, msg.NoBar) :
    Restorable R (Run.run step (State.init env) msgs) :=
  Run.run_induction step (fun _ _ hs h => hs.step h) (Run.allSteps_of_forall step hb _) (restorable_init R env)

/-! ## The import -/

section Import

variable {R : Registrar Γ} {s : State Γ} {p : Bytes}

theorem forEach_initNamespace_restores (h : Restorable R s) (t₀ : State Γ) (hempty : t₀.namespaces = KVStore.empty)
    (hf : Γ.fetchCapability t₀.env p = .ok ()) (howns : ∀ n d, ¬R.owns t₀.env p n d) (hh : ∀ n d, ¬R.holds t₀.env p n d) :
    ∃ env, (Eff.forEach (s.namespaces.entries.map Prod.snd) (initNamespace p)).Succeeds t₀ ()
        { t₀ with env := env, namespaces := s.namespaces } ∧
      Γ.fetchCapability env p = .ok () ∧ R.Owned env p s.namespaces ∧ ∀ n d, ¬R.holds env p n d := by
  have hl := forEach_restores s.namespaces Prod.snd (initNamespace p) (s := t₀)
    (fun store t => ∃ env, t = { t₀ with env := env, namespaces := store } ∧ Γ.fetchCapability env p = .ok () ∧
      R.Owned env p store ∧ ∀ n d, ¬R.holds env p n d) ⟨t₀.env, by rw [← hempty], hf, ?_, hh⟩ ?_
  · obtain ⟨_, hl, env, rfl, hrest⟩ := hl
    exact ⟨env, hl, hrest⟩
  · intro n d
    refine ⟨fun hd => absurd hd (howns n d), ?_⟩
    rintro ⟨record, hrecord, -⟩
    cases hrecord
  · rintro n record hstored store _ hnew ⟨env, rfl, hf, howns, hh⟩
    obtain ⟨rfl, hv, -⟩ := h.namespaces n record hstored
    have hunowned : ∀ d, ¬R.owns env p record.id d := by
      intro d hd
      obtain ⟨other, hot, -⟩ := (howns record.id d).1 hd
      rw [hnew] at hot
      cases hot
    obtain ⟨env', hcmd⟩ := R.registers record.creator hf hv hunowned
    refine ⟨_, bind_ok.2 ⟨(), _, must_ok.2 (policyCmd_ok.2 ⟨hf, env', hcmd, rfl⟩),
      modify_ok.2 rfl⟩, env', rfl, R.capability hcmd hf, howns.set hnew hcmd, fun m d hd => ?_⟩
    rw [R.cmd hcmd] at hd
    exact hh m d hd

theorem forEach_initCollaborator_restores (h : Restorable R s) (t₀ : State Γ) (hempty : t₀.collaborators = KVStore.empty)
    (hna : t₀.namespaces = s.namespaces) (hf : Γ.fetchCapability t₀.env p = .ok ())
    (howns : R.Owned t₀.env p s.namespaces) (hh : ∀ n d, ¬R.holds t₀.env p n d) :
    ∃ env, (Eff.forEach (s.collaborators.entries.map Prod.snd) (initCollaborator p)).Succeeds t₀ ()
        { t₀ with env := env, collaborators := s.collaborators } ∧
      R.Owned env p s.namespaces ∧
      ∀ n d, R.holds env p n d ↔ ∃ c, s.getCollaborator n d = some c ∧ c.namespaceId = n ∧ c.did = d := by
  have hl := forEach_restores s.collaborators Prod.snd (initCollaborator p) (s := t₀)
    (fun store t => ∃ env, t = { t₀ with env := env, collaborators := store } ∧ Γ.fetchCapability env p = .ok () ∧
      R.Owned env p s.namespaces ∧ ∀ n d, R.holds env p n d ↔
        ∃ c, store.get (collaboratorKey n d) = some c ∧ c.namespaceId = n ∧ c.did = d)
    ⟨t₀.env, by rw [← hempty], hf, howns, ?_⟩ ?_
  · obtain ⟨_, hl, env, rfl, -, hrest⟩ := hl
    exact ⟨env, hl, hrest⟩
  · intro n d
    refine ⟨fun hd => absurd hd (hh n d), ?_⟩
    rintro ⟨c, hc, -⟩
    cases hc
  · rintro k c hstored store _ hnew ⟨env, rfl, hf, howns, hh⟩
    obtain ⟨rfl, hns, -, -⟩ := h.inStep.record k c hstored
    obtain ⟨record, hrecord⟩ := Option.isSome_iff_exists.1 hns
    obtain ⟨env', hcmd⟩ := R.relates c.address hf (h.collaborators _ c hstored)
      ((howns c.namespaceId record.ownerDid).2 ⟨record, hrecord, rfl⟩)
    refine ⟨_, ?_, env', rfl, R.capability hcmd hf, fun m e => ?_, fun m e => ?_⟩
    · -- the owner is found, the collaborator is not there yet, and the engine is asked
      unfold initCollaborator
      rw [read_bind_ok, hna, hrecord]
      dsimp only
      refine bind_ok.2 ⟨(), _, must_ok.2 (require_ok.2 ⟨?_, rfl⟩), ?_⟩
      · exact Option.isNone_iff_eq_none.2 hnew
      · exact bind_ok.2 ⟨(), _, must_ok.2 (policyCmd_ok.2 ⟨hf, env', hcmd, rfl⟩), modify_ok.2 rfl⟩
    · rw [(R.related hcmd).2]
      exact howns m e
    · rw [R.cmd hcmd, PolicyCmd.leaves, hh]
      exact (recorded_set_iff hnew m e).symm

theorem forEach_setPost_restores (h : Restorable R s) (t₀ : State Γ) (hempty : t₀.posts = KVStore.empty) :
    (Eff.forEach (s.posts.entries.map Prod.snd) setPost).Succeeds t₀ () { t₀ with posts := s.posts } := by
  have hl := forEach_restores s.posts Prod.snd setPost (s := t₀) (fun store t => t = { t₀ with posts := store })
    (by rw [← hempty]) ?_
  · obtain ⟨_, hl, rfl⟩ := hl
    exact hl
  · rintro k post hstored store _ - rfl
    obtain ⟨rfl, -⟩ := h.posts k post hstored
    exact ⟨_, modify_ok.2 rfl, rfl⟩

end Import

/-- The state is restored: the same namespaces, collaborators and posts, and the same permissions to post. -/
structure Restored (s t : State Γ) : Prop where
  namespaces : t.namespaces = s.namespaces
  collaborators : t.collaborators = s.collaborators
  posts : t.posts = s.posts
  mayPost : ∀ n d, t.MayPost n d ↔ s.MayPost n d

variable {R : Registrar Γ} {s : State Γ}

theorem initGenesis_of_policy (h : Restorable R s) {p : Bytes} (hp : s.policyId = some p)
    {env₀ : Γ.σ} (hempty : R.empty env₀) :
    ∃ t, (initGenesis s.genesisState).Succeeds (State.init env₀) () t ∧ Restored s t := by
  obtain ⟨p', env₁, hcr⟩ := R.creates hempty
  obtain ⟨howns, hf⟩ := R.created hcr
  have hen : ensurePolicy.Succeeds (State.init env₀) p' { State.init env₀ with env := env₁, policyId := some p' } := by
    unfold ensurePolicy
    rw [read_bind_ok]
    refine bind_ok.2 ⟨p', _, callEnv_ok.2 ⟨env₁, hcr, rfl⟩, ?_⟩
    rw [modify_bind_ok]
    exact pure_ok.2 ⟨rfl, rfl⟩
  obtain ⟨env₂, hna, hf₂, howns₂, hh₂⟩ := forEach_initNamespace_restores h
    { State.init env₀ with env := env₁, policyId := some p' } rfl hf howns (R.create hcr).2
  obtain ⟨env₃, hco, howns₃, hh₃⟩ := forEach_initCollaborator_restores h
    { State.init env₀ with env := env₂, policyId := some p', namespaces := s.namespaces } rfl rfl hf₂ howns₂ hh₂
  have hpo := forEach_setPost_restores h
    { State.init env₀ with env := env₃, policyId := some p', namespaces := s.namespaces, collaborators := s.collaborators } rfl
  refine ⟨{ s with env := env₃, policyId := some p', events := [] }, ?_, rfl, rfl, rfl, fun n d => ?_⟩
  · have hne : s.genesisState.policyId ≠ [] := by
      rw [State.genesisState, hp]
      exact (h.inStep.policy p hp).1
    unfold initGenesis
    rw [if_neg hne]
    refine bind_ok.2 ⟨p', _, must_ok.2 hen, modify_bind_ok.2 ?_⟩
    exact bind_ok.2 ⟨(), _, hna, bind_ok.2 ⟨(), _, hco, hpo⟩⟩
  · have ha : ∀ n d, R.owns env₃ p' n d ∨ R.holds env₃ p' n d ↔ R.owns s.env p n d ∨ R.holds s.env p n d := by
      intro n d
      rw [howns₃, hh₃, h.owners p hp, (h.inStep.policy p hp).2]
    simp only [State.MayPost, R.verifies, hp, Option.some.injEq, exists_eq_left']
    exact ha n d

/-- A state without a policy has nothing in it, and the import of its export leaves the store empty. -/
theorem initGenesis_of_no_policy (h : Restorable R s) (hp : s.policyId = none) (env₀ : Γ.σ) :
    ∃ t, (initGenesis s.genesisState).Succeeds (State.init env₀) () t ∧ Restored s t := by
  have hempty : s.genesisState.policyId = [] := by
    rw [State.genesisState, hp]
    rfl
  refine ⟨State.init env₀, ?_, ?_⟩
  · unfold initGenesis
    rw [if_pos hempty]
    exact pure_ok.2 ⟨rfl, rfl⟩
  · refine ⟨ext_get fun n => ?_, ext_get fun k => ?_, ext_get fun k => ?_, fun n d => ?_⟩
    · cases hrecord : s.namespaces.get n with
      | none => rfl
      | some record => exact absurd hp (h.namespaces n record hrecord).2.2.2
    · cases hc : s.collaborators.get k with
      | none => rfl
      | some c => exact absurd hp (h.inStep.record k c hc).2.2.2
    · cases hpo : s.posts.get k with
      | none => rfl
      | some post => exact absurd hp (h.posts k post hpo).2
    · simp [State.MayPost, hp, State.init]

/-- For every state that is reached by messages whose namespaces have no bar: its export, imported into an empty store with an empty
state of the engine, restores it without a panic. -/
theorem bulletin_genesis_round_trip (R : Registrar Γ) (env : Γ.σ) (msgs : List Msg) (hbar : ∀ msg ∈ msgs, msg.NoBar)
    {env₀ : Γ.σ} (hempty : R.empty env₀) :
    let s := Run.run step (State.init env) msgs
    ∃ g t, exportGenesis.Succeeds s g s ∧ (initGenesis g).Succeeds (State.init env₀) () t ∧ Restored s t := by
  intro s
  have h : Restorable R s := restorable_run R env hbar
  refine ⟨s.genesisState, ?_⟩
  cases hp : s.policyId with
  | none =>
    obtain ⟨t, ht, hr⟩ := initGenesis_of_no_policy h hp env₀
    exact ⟨t, query_ok.2 ⟨rfl, rfl⟩, ht, hr⟩
  | some p =>
    obtain ⟨t, ht, hr⟩ := initGenesis_of_policy h hp hempty
    exact ⟨t, query_ok.2 ⟨rfl, rfl⟩, ht, hr⟩

/-! ## On the local chain -/

theorem Acp.cmd_owners {actor : Bytes} {cmd : PolicyCmd} {c c' : Acp} (h : (Acp.cmd actor cmd).Succeeds c () c') (n d : Bytes) :
    (n, d) ∈ c'.owners ↔ (n, d) ∈ c.owners ∨ (cmd = .registerObject n ∧ d = actor) := by
  cases cmd with
  | registerObject m =>
    simp only [Acp.cmd, read_bind_ok, require_bind_ok, modify_ok] at h
    rw [h.2]
    simp [or_comm, eq_comm]
  | setRelationship m e =>
    simp only [Acp.cmd, read_bind_ok, require_bind_ok, modify_ok] at h
    rw [h.2]
    simp
  | deleteRelationship m e =>
    simp only [Acp.cmd, read_bind_ok, require_bind_ok, modify_ok] at h
    rw [h.2]
    simp

def localRegistrar : Registrar localAcp := { localEngine with
  owns := fun (c : Acp) _ n d => (n, d) ∈ c.owners
  valid := fun _ => True
  empty := fun (c : Acp) => c = ⟨[], []⟩
  creates := fun _ => ⟨str "policy", (⟨[], []⟩ : Acp), rfl⟩
  created := by
    intro env env' p h
    obtain rfl : (⟨[], []⟩ : Acp) = env' := by injection h
    exact ⟨fun n d hmem => absurd hmem not_mem_nil, rfl⟩
  registered := by
    intro env env' p n actor signer h
    have hcmd : (Acp.cmd actor (.registerObject n)).Succeeds env () env' := h
    refine ⟨trivial, fun m d => ?_⟩
    rw [Acp.cmd_owners hcmd]
    simp [eq_comm]
  related := by
    intro env env' p n d actor signer h
    have hcmd : (Acp.cmd actor (.setRelationship n d)).Succeeds env () env' := h
    refine ⟨trivial, fun m e => ?_⟩
    rw [Acp.cmd_owners hcmd]
    simp
  unrelated := by
    intro env env' p n d actor signer h
    have hcmd : (Acp.cmd actor (.deleteRelationship n d)).Succeeds env () env' := h
    intro m e
    rw [Acp.cmd_owners hcmd]
    simp
  capability := fun _ _ => rfl
  registers := by
    intro env p n actor signer _ _ hunowned
    refine ⟨_, read_bind_ok.2 (require_bind_ok.2 ⟨?_, modify_ok.2 rfl⟩)⟩
    intro hmem
    obtain ⟨e, he, rfl⟩ := mem_map.1 hmem
    exact hunowned e.2 he
  relates := by
    intro env p n d actor signer _ _ howns
    exact ⟨_, read_bind_ok.2 (require_bind_ok.2 ⟨howns, modify_ok.2 rfl⟩)⟩
  verifies := by
    intro env p n d
    show Except.ok _ = Except.ok true ↔ _
    rw [Except.ok.injEq, decide_eq_true_eq]
    exact Iff.rfl }

/-- Two namespaces, one with a slash in its name, with a collaborator and a post. -/
def collaboratorPosts : List Msg :=
  [.registerNamespace now (str "alice") (str "a/b"), .registerNamespace now (str "bob") (str "c"),
    .addCollaborator now (str "alice") (str "a/b") (str "carol"), .createPost now (str "carol") (str "a/b") (str "hello") []]

/-- The two namespaces, the collaborator and the post are restored. -/
theorem bulletin_genesis_round_trip_collaboratorPosts :
    let s : State localAcp := Run.run step (State.init (⟨[], []⟩ : Acp)) collaboratorPosts
    (s.namespaces.entries.length, s.collaborators.entries.length, s.posts.entries.length) = (2, 1, 1) ∧
      ∃ g t, exportGenesis.Succeeds s g s ∧ (initGenesis g).Succeeds (State.init (Γ := localAcp) (⟨[], []⟩ : Acp)) () t ∧
        Restored s t :=
  ⟨by decide +kernel, bulletin_genesis_round_trip localRegistrar (⟨[], []⟩ : Acp) collaboratorPosts (by decide) rfl⟩

end Vera.Bulletin
