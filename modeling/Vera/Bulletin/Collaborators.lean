import Vera.Bulletin.Posts

/-!
# Collaborators and their permissions

A collaborator of a namespace is a relationship in the policy and a record of the bulletin. The record is kept under the
sanitized id of the namespace, so a record of one namespace is found, and can be deleted, through another whose id differs in
slashes and bars only; the relationship then stays without a record and nobody can remove it.
-/

namespace Vera.Bulletin

open Eff KVStore List
open Bytes (str)

variable {Γ : Env}

/-- What a command leaves of a relation between namespaces and actors. -/
def PolicyCmd.leaves (related : Bytes → Bytes → Prop) (n d : Bytes) : PolicyCmd → Prop
  | .registerObject _ => related n d
  | .setRelationship m e => related n d ∨ (n = m ∧ d = e)
  | .deleteRelationship m e => related n d ∧ ¬(n = m ∧ d = e)

/-- The relationships of the engine, and what is asked of it: a new policy has none, registering an object adds none, and the
relationship commands add and delete exactly the one they name. Issued DIDs have no slash and no bar. -/
structure Engine (Γ : Env) where
  /-- Whether a policy holds that an actor is a collaborator of a namespace. -/
  holds : Γ.σ → Bytes → Bytes → Bytes → Prop
  create : ∀ {env env' p}, Γ.createModulePolicy.Succeeds env p env' → p ≠ [] ∧ ∀ n d, ¬holds env' p n d
  cmd : ∀ {env env' p cmd actor signer}, (Γ.modulePolicyCmd p cmd actor signer).Succeeds env () env' →
    ∀ n d, holds env' p n d ↔ cmd.leaves (holds env p) n d
  issued : ∀ {env address did}, Γ.issueDIDFromAccountAddr env address = .ok did → 0x2f ∉ did ∧ 0x7c ∉ did

/-- For every registered namespace, the relationships are those with a record that is found and listed. -/
def Mirrors (E : Engine Γ) (s : State Γ) : Prop :=
  ∀ n, s.hasNamespace n = true → ∀ d,
    (∃ p, s.policyId = some p ∧ E.holds s.env p n d) ↔
      ∃ c, s.getCollaborator n d = some c ∧ c.namespaceId = n ∧ c.did = d ∧ c ∈ listing s.collaborators n

/-- Whoever the engine lets delete the relationship of a collaborator can remove the collaborator. -/
def Removable (E : Engine Γ) (s : State Γ) : Prop :=
  ∀ ctx creator ns collaborator p ownerDID d env, s.policyId = some p → s.hasNamespace (getNamespaceId ns) = true →
    (getActorDID ctx creator s).1 = .ok ownerDID → Γ.issueDIDFromAccountAddr s.env collaborator = .ok d →
    E.holds s.env p (getNamespaceId ns) d → Γ.fetchCapability s.env p = .ok () →
    (Γ.modulePolicyCmd p (.deleteRelationship (getNamespaceId ns) d) ownerDID creator).Succeeds s.env () env →
      (removeCollaborator ctx creator ns collaborator s).1.isOk = true

/-- No namespace is registered whose id differs from that of another in slashes and bars only. -/
def Msg.NoClash (s : State Γ) : Msg → Prop
  | .registerNamespace _ _ ns => ∀ m, s.hasNamespace m = true → sanitizeKeyPart m = sanitizeKeyPart (getNamespaceId ns) →
    m = getNamespaceId ns
  | _ => True

instance Msg.NoClash.decidable (s : State Γ) (msg : Msg) : Decidable (msg.NoClash s) :=
  match msg with
  | .registerNamespace _ _ ns =>
    decidable_of_iff (∀ e ∈ s.namespaces.entries, sanitizeKeyPart e.1 = sanitizeKeyPart (getNamespaceId ns) →
      e.1 = getNamespaceId ns) <| by
      constructor
      · intro h m hm
        obtain ⟨record, hrecord⟩ := Option.isSome_iff_exists.1 hm
        exact h (m, record) (s.namespaces.mem_entries.2 hrecord)
      · intro h e he
        exact h e.1 (Option.isSome_iff_exists.2 ⟨e.2, s.namespaces.mem_entries.1 he⟩)
  | .createPost .. => .isTrue trivial
  | .addCollaborator .. => .isTrue trivial
  | .removeCollaborator .. => .isTrue trivial

theorem sanitizeKeyPart_self {d : Bytes} (hd : 0x2f ∉ d) : sanitizeKeyPart d = d := by
  refine (map_congr_left fun b hb => ?_).trans (map_id d)
  have hne : b ≠ 0x2f := by
    rintro rfl
    exact hd hb
  simp [hne]

theorem eq_of_sanitizeKeyPart_eq {d e : Bytes} (hd : 0x2f ∉ d ∧ 0x7c ∉ d) (h : sanitizeKeyPart e = sanitizeKeyPart d) :
    e = d := by
  rw [sanitizeKeyPart_self hd.1] at h
  have he : 0x2f ∉ e := by
    intro hs
    have hb : (0x7c : UInt8) ∈ sanitizeKeyPart e := mem_map.2 ⟨0x2f, hs, rfl⟩
    rw [h] at hb
    exact hd.2 hb
  rw [← h, sanitizeKeyPart_self he]

/-! ## Records and relationships -/

/-- The records are those of the relationships, each under its own key, and no two registered namespaces share keys. -/
structure InStep (E : Engine Γ) (s : State Γ) : Prop where
  distinct : ∀ n m, s.hasNamespace n = true → s.hasNamespace m = true → sanitizeKeyPart n = sanitizeKeyPart m → n = m
  record : ∀ k c, s.collaborators.get k = some c →
    k = collaboratorKey c.namespaceId c.did ∧ s.hasNamespace c.namespaceId = true ∧ (0x2f ∉ c.did ∧ 0x7c ∉ c.did) ∧
      s.policyId ≠ none
  policy : ∀ p, s.policyId = some p → p ≠ [] ∧ ∀ n d, E.holds s.env p n d ↔
    ∃ c, s.getCollaborator n d = some c ∧ c.namespaceId = n ∧ c.did = d

theorem inStep_init (E : Engine Γ) (env : Γ.σ) : InStep E (State.init env) := by
  refine ⟨?_, ?_, ?_⟩
  · intro n m hn
    cases hn
  · intro k c hc
    cases hc
  · intro p hp
    cases hp

/-- A record under a free key adds its relationship to the recorded ones. -/
theorem recorded_set_iff {store : KVStore Bytes Collaborator} {c : Collaborator}
    (hnew : store.get (collaboratorKey c.namespaceId c.did) = none) (n d : Bytes) :
    (∃ c', (store.set (collaboratorKey c.namespaceId c.did) c).get (collaboratorKey n d) = some c' ∧ c'.namespaceId = n ∧
      c'.did = d) ↔ (∃ c', store.get (collaboratorKey n d) = some c' ∧ c'.namespaceId = n ∧ c'.did = d) ∨
        (n = c.namespaceId ∧ d = c.did) := by
  rw [get_set]
  split
  · rename_i hke
    rw [hke, hnew]
    simp only [reduceCtorEq, false_and, exists_false, false_or, Option.some.injEq, exists_eq_left']
    exact and_congr eq_comm eq_comm
  · rename_i hke
    have hot : ¬(n = c.namespaceId ∧ d = c.did) := by
      rintro ⟨rfl, rfl⟩
      exact hke rfl
    simp [hot]

section Step

variable {E : Engine Γ} {s : State Γ}

theorem InStep.record_eq (h : InStep E s) {n d : Bytes} {c : Collaborator} (hn : s.hasNamespace n = true)
    (hd : 0x2f ∉ d ∧ 0x7c ∉ d) (hc : s.getCollaborator n d = some c) : c.namespaceId = n ∧ c.did = d := by
  obtain ⟨hke, hns, -, -⟩ := h.record _ c hc
  obtain ⟨hs, hdi⟩ := key_inj hke
  exact ⟨(h.distinct n c.namespaceId hn hns hs).symm, eq_of_sanitizeKeyPart_eq hd hdi.symm⟩

theorem InStep.mirrors (h : InStep E s) : Mirrors E s := by
  intro n hn d
  constructor
  · rintro ⟨p, hp, hh⟩
    obtain ⟨c, hc, hns, hd⟩ := ((h.policy p hp).2 n d).1 hh
    refine ⟨c, hc, hns, hd, ?_⟩
    rw [mem_listing]
    exact ⟨_, hc, (startsWith_key_iff n n d).2 rfl⟩
  · rintro ⟨c, hc, hns, hd, -⟩
    obtain ⟨-, -, -, hs⟩ := h.record _ c hc
    obtain ⟨p, hp⟩ := Option.ne_none_iff_exists'.1 hs
    exact ⟨p, hp, ((h.policy p hp).2 n d).2 ⟨c, hc, hns, hd⟩⟩

theorem InStep.removable (h : InStep E s) : Removable E s := by
  intro ctx creator ns collaborator p ownerDID d env hp hn ha his hh hf hd
  obtain ⟨hne, hm⟩ := h.policy p hp
  obtain ⟨c, hc, -, -⟩ := (hm _ d).1 hh
  have hpolicy : requirePolicyId.Succeeds s p s := by
    unfold requirePolicyId
    rw [query_ok, hp]
    cases p with
    | nil => exact absurd rfl hne
    | cons b p => exact ⟨rfl, rfl⟩
  have hcmd : (policyCmd p (.deleteRelationship (getNamespaceId ns) d) ownerDID creator).Succeeds s () { s with env := env } :=
    policyCmd_ok.2 ⟨hf, env, hd, rfl⟩
  have hok : (removeCollaborator ctx creator ns collaborator).Succeeds s () { s with
      env := env
      collaborators := s.collaborators.delete (collaboratorKey (getNamespaceId ns) d)
      events := s.events ++ [.collaboratorRemoved (getNamespaceId ns) d] } := by
    unfold removeCollaborator
    refine bind_ok.2 ⟨p, s, hpolicy, ?_⟩
    rw [requireNamespace_bind_ok, getActorDID_bind_ok]
    refine ⟨hn, ownerDID, ha, ?_⟩
    rw [query_bind_ok]
    refine ⟨d, Outcome.ofExcept_eq_ok.2 his, ?_⟩
    rw [read_bind_ok, require_bind_ok]
    refine ⟨by rw [hc]; rfl, bind_ok.2 ⟨(), _, hcmd, ?_⟩⟩
    rw [modify_bind_ok]
    exact modify_ok.2 rfl
  rw [hok]
  rfl

/-! ### One message -/

variable {t : State Γ} {u : Unit} {ctx : Ctx}

theorem InStep.ensurePolicy {p : Bytes} (h : InStep E s) (hen : ensurePolicy.Succeeds s p t) :
    InStep E t ∧ t.policyId = some p ∧ t.namespaces = s.namespaces := by
  rcases ensurePolicy_ok hen with ⟨hp, rfl⟩ | ⟨hnone, env, hcr, rfl⟩
  · exact ⟨h, hp, rfl⟩
  · -- with no policy there are no records, and a new policy has no relationships
    have hempty : ∀ k, s.collaborators.get k = none := by
      intro k
      cases hc : s.collaborators.get k with
      | none => rfl
      | some c => exact absurd hnone (h.record k c hc).2.2.2
    obtain ⟨hne, hh⟩ := E.create hcr
    refine ⟨⟨h.distinct, ?_, ?_⟩, rfl, rfl⟩
    · intro k c hc
      rw [hempty k] at hc
      cases hc
    · intro p' hp'
      obtain rfl : p = p' := Option.some.inj hp'
      refine ⟨hne, fun n d => ⟨fun hd => absurd hd (hh n d), ?_⟩⟩
      rintro ⟨c, hc, -, -⟩
      rw [State.getCollaborator, hempty] at hc
      cases hc

variable {creator ns collaborator : Bytes}

theorem InStep.registerNamespace (h : InStep E s) (hcl : Msg.NoClash s (.registerNamespace ctx creator ns))
    (hcall : (registerNamespace ctx creator ns).Succeeds s u t) : InStep E t := by
  obtain ⟨p, s₁, ownerDID, env, event, hen, hnew, hcmd, rfl⟩ := registerNamespace_ok hcall
  obtain ⟨h₁, hp, hna⟩ := h.ensurePolicy hen
  have hmem : ∀ {record : Namespace} m, (s₁.namespaces.set (getNamespaceId ns) record |>.get m).isSome = true →
      s.hasNamespace m = true ∨ getNamespaceId ns = m := by
    intro record m hm
    rcases (isSome_get_set _ _ _ _).1 hm with hm | hm
    · rw [hna] at hm
      exact .inl hm
    · exact .inr hm
  refine ⟨?_, ?_, ?_⟩
  · intro n m hn hm hs
    rcases hmem n hn with hn | rfl <;> rcases hmem m hm with hm | rfl
    · exact h.distinct n m hn hm hs
    · exact hcl n hn hs
    · exact (hcl m hm hs.symm).symm
    · rfl
  · intro k c hc
    obtain ⟨hke, hns, hcle, hso⟩ := h₁.record k c hc
    exact ⟨hke, (isSome_get_set _ _ _ _).2 (.inl hns), hcle, hso⟩
  · intro p' hp'
    obtain rfl : p = p' := Option.some.inj (hp.symm.trans hp')
    obtain ⟨hne, hmi⟩ := h₁.policy p hp
    refine ⟨hne, fun n d => ?_⟩
    rw [E.cmd hcmd n d]
    exact hmi n d

theorem InStep.addCollaborator (h : InStep E s)
    (hcall : (addCollaborator ctx creator ns collaborator).Succeeds s u t) : InStep E t := by
  obtain ⟨p, ownerDID, did, env, event, hp, hns, his, hnone, hcmd, rfl⟩ := addCollaborator_ok hcall
  have hcl := E.issued his
  refine ⟨h.distinct, All.set h.record ⟨rfl, hns, hcl, by rw [hp]; exact Option.some_ne_none p⟩, ?_⟩
  · intro p' hp'
    obtain rfl : p = p' := Option.some.inj (hp.symm.trans hp')
    obtain ⟨hne, hm⟩ := h.policy p hp
    refine ⟨hne, fun n d => ?_⟩
    rw [E.cmd hcmd n d, PolicyCmd.leaves, hm n d]
    exact (recorded_set_iff (c := ⟨collaborator, did, getNamespaceId ns⟩) hnone n d).symm

theorem InStep.removeCollaborator (h : InStep E s)
    (hcall : (removeCollaborator ctx creator ns collaborator).Succeeds s u t) : InStep E t := by
  obtain ⟨p, ownerDID, did, env, event, hp, hns, his, hs, hcmd, rfl⟩ := removeCollaborator_ok hcall
  have hcl := E.issued his
  obtain ⟨c₀, hc₀⟩ := Option.isSome_iff_exists.1 hs
  obtain ⟨hns₀, hd₀⟩ := h.record_eq hns hcl hc₀
  refine ⟨h.distinct, All.delete h.record _, ?_⟩
  · intro p' hp'
    obtain rfl : p = p' := Option.some.inj (hp.symm.trans hp')
    obtain ⟨hne, hm⟩ := h.policy p hp
    refine ⟨hne, fun n d => ?_⟩
    rw [E.cmd hcmd n d, PolicyCmd.leaves, hm n d]
    unfold State.getCollaborator
    rw [get_delete]
    split
    · -- the record that goes is that of the relationship that goes
      rename_i hke
      rw [hke, show s.collaborators.get (collaboratorKey (getNamespaceId ns) did) = some c₀ from hc₀]
      simp [hns₀, hd₀]
      rintro rfl rfl
      simp
    · rename_i hke
      have hot : ¬(n = getNamespaceId ns ∧ d = did) := by
        rintro ⟨rfl, rfl⟩
        exact hke rfl
      simp [hot]

theorem InStep.createPost {payload artifact : Bytes} (h : InStep E s)
    (hcall : (createPost ctx creator ns payload artifact).Succeeds s u t) : InStep E t := by
  obtain ⟨_, _, -, -, -, rfl⟩ := createPost_ok hcall
  exact ⟨h.distinct, h.record, h.policy⟩

/-- A message keeps records and relationships in step, if it registers no namespace that shares the keys of another. -/
theorem InStep.step {msg : Msg} (h : InStep E s) (hcl : msg.NoClash s) : InStep E (step s msg) := by
  refine commit_of_ok (P := InStep E) h fun u t hcall => ?_
  cases msg with
  | registerNamespace ctx creator ns => exact h.registerNamespace hcl hcall
  | createPost ctx creator ns payload artifact => exact h.createPost hcall
  | addCollaborator ctx creator ns collaborator => exact h.addCollaborator hcall
  | removeCollaborator ctx creator ns collaborator => exact h.removeCollaborator hcall

end Step

/-! ## Runs -/

/-- After a run that registers no two namespaces whose ids differ in slashes and bars only, the records mirror the
relationships, and every collaborator can be removed by whom the engine lets delete the relationship. -/
theorem collaborators_mirror (E : Engine Γ) (env : Γ.σ) (msgs : List Msg)
    (h : Run.AllSteps step (fun s msg => msg.NoClash s) (State.init env) msgs) :
    Mirrors E (Run.run step (State.init env) msgs) ∧ Removable E (Run.run step (State.init env) msgs) := by
  have hin : InStep E (Run.run step (State.init env) msgs) :=
    Run.run_induction step (fun s msg hs hcl => hs.step hcl) h (inStep_init E env)
  exact ⟨hin.mirrors, hin.removable⟩

/-! ## On the local chain -/

theorem Acp.cmd_collaborators {actor : Bytes} {cmd : PolicyCmd} {c c' : Acp} (h : (Acp.cmd actor cmd).Succeeds c () c')
    (n d : Bytes) : (n, d) ∈ c'.collaborators ↔ cmd.leaves (fun n d => (n, d) ∈ c.collaborators) n d := by
  cases cmd with
  | registerObject m =>
    simp only [Acp.cmd, read_bind_ok, require_bind_ok, modify_ok] at h
    rw [h.2, PolicyCmd.leaves]
  | setRelationship m e =>
    simp only [Acp.cmd, read_bind_ok, require_bind_ok, modify_ok] at h
    rw [h.2]
    simp [PolicyCmd.leaves, or_comm]
  | deleteRelationship m e =>
    simp only [Acp.cmd, read_bind_ok, require_bind_ok, modify_ok] at h
    rw [h.2]
    simp only [mem_filter, decide_eq_true_eq, ne_eq, Prod.mk.injEq, PolicyCmd.leaves]

theorem localDid_clean (address : Bytes) :
    0x2f ∉ str "did:key:" ++ Bytes.hex address ∧ 0x7c ∉ str "did:key:" ++ Bytes.hex address := by
  have hs : 0x2f ∉ str "did:key:" ∧ 0x7c ∉ str "did:key:" := by decide
  have hd : ∀ k < 16, Bytes.hexDigit k ≠ 0x2f ∧ Bytes.hexDigit k ≠ 0x7c := by decide
  have hh : ∀ b ∈ Bytes.hex address, b ≠ 0x2f ∧ b ≠ 0x7c := by
    intro b hb
    obtain ⟨a, -, ha⟩ := mem_flatMap.1 hb
    have hlt := a.toNat_lt
    simp only [mem_cons, not_mem_nil, or_false] at ha
    rcases ha with rfl | rfl
    · exact hd _ (by omega)
    · exact hd _ (by omega)
  constructor
  · intro hmem
    rcases mem_append.1 hmem with h | h
    · exact hs.1 h
    · exact (hh _ h).1 rfl
  · intro hmem
    rcases mem_append.1 hmem with h | h
    · exact hs.2 h
    · exact (hh _ h).2 rfl

def localEngine : Engine localAcp where
  holds := fun (c : Acp) _ n d => (n, d) ∈ c.collaborators
  create := by
    intro env env' p h
    have hpolicy : str "policy" = p := by injection h with hres; injection hres
    have hempty : (⟨[], []⟩ : Acp) = env' := by injection h
    subst hpolicy hempty
    exact ⟨by decide, fun n d hmem => absurd hmem not_mem_nil⟩
  cmd := by
    intro env env' p cmd actor signer h
    have hcmd : (Acp.cmd actor cmd).Succeeds env () env' := h
    exact Acp.cmd_collaborators hcmd
  issued := by
    intro env address did h
    obtain rfl : str "did:key:" ++ Bytes.hex address = did := Except.ok.inj h
    exact localDid_clean address

/-- A collaborator of one of two namespaces with unlike names. -/
def collaborating : List Msg :=
  [.registerNamespace now (str "alice") (str "a"), .registerNamespace now (str "bob") (str "b"),
    .addCollaborator now (str "alice") (str "a") (str "carol")]

/-- A collaborator of a namespace, removed by the owner of another whose name differs in a slash. -/
def removedByAnother : List Msg :=
  [.registerNamespace now (str "alice") (str "a/b"), .registerNamespace now (str "bob") (str "a|b"),
    .addCollaborator now (str "alice") (str "a/b") (str "carol"),
    .removeCollaborator now (str "bob") (str "a|b") (str "carol")]

/-- With unlike names the collaborator has a record and a relationship. -/
theorem collaborators_mirror_collaborating :
    let s : State localAcp := Run.run step (State.init (⟨[], []⟩ : Acp)) collaborating
    (listing s.collaborators (str "bulletin/a")).length = 1 ∧ Mirrors localEngine s ∧ Removable localEngine s := by
  exact ⟨by decide +kernel, collaborators_mirror localEngine (⟨[], []⟩ : Acp) collaborating (by decide +kernel)⟩

/-- The relationship stays and the record is gone, so that the owner cannot remove the collaborator any more. -/
theorem collaborators_mirror_false :
    let s : State localAcp := Run.run step (State.init (⟨[], []⟩ : Acp)) removedByAnother
    s.hasNamespace (str "bulletin/a/b") = true ∧ ¬Mirrors localEngine s ∧ ¬Removable localEngine s ∧
      (removeCollaborator now (str "alice") (str "a/b") (str "carol") s).1 = .err .collaboratorNotFound := by
  intro s
  have hna : s.hasNamespace (str "bulletin/a/b") = true := by decide +kernel
  have hpolicy : s.policyId = some (str "policy") := by decide +kernel
  have hh : localEngine.holds s.env (str "policy") (str "bulletin/a/b") (str "did:key:6361726f6c") := by
    unfold localEngine
    decide +kernel
  have hrecord : s.getCollaborator (str "bulletin/a/b") (str "did:key:6361726f6c") = none := by decide +kernel
  have hf : (removeCollaborator now (str "alice") (str "a/b") (str "carol") s).1 = .err .collaboratorNotFound := by
    decide +kernel
  refine ⟨hna, ?_, ?_, hf⟩
  · intro hm
    obtain ⟨c, hc, -⟩ := (hm _ hna (str "did:key:6361726f6c")).1 ⟨str "policy", hpolicy, hh⟩
    rw [hrecord] at hc
    cases hc
  · intro hr
    have hok := hr now (str "alice") (str "a/b") (str "carol") (str "policy") (str "did:key:616c696365")
      (str "did:key:6361726f6c") (Acp.cmd (str "did:key:616c696365")
        (.deleteRelationship (str "bulletin/a/b") (str "did:key:6361726f6c")) s.env).2 hpolicy (by decide +kernel)
      (by decide +kernel) (by decide +kernel) hh rfl ?_
    · rw [hf] at hok
      cases hok
    · exact Prod.ext (by decide +kernel) rfl

end Vera.Bulletin
