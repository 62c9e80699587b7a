import Vera.Bulletin.Keeper
import Vera.Lib.Run

/-!
# Isolation of namespaces

The posts listed for a namespace are those under the keys of its sanitized id. Every post that was created is stored under its
own key and none is overwritten, so a listing is short of nothing; it has the posts of another namespace exactly when the ids
of the two differ in slashes and bars only.
-/

namespace Vera.Bulletin

open List
open Bytes (str)

variable {Γ : Env}

/-- What is asked of `query.Paginate`: a page has values of the listing only, and a page as long as the listing has all. -/
structure PageLaws (Γ : Env) : Prop where
  mem : ∀ {α : Type} (xs ys : List α) (page : PageRequest), Γ.paginate xs page = .ok ys → ∀ y ∈ ys, y ∈ xs
  whole : ∀ {α : Type} (xs : List α) (page : PageRequest), page.key = [] → page.offset = 0 → xs.length ≤ page.limit →
    Γ.paginate xs page = .ok xs

/-- The post a message creates, if it creates one. -/
def Msg.createdPost (s : State Γ) : Msg → Option Post
  | .createPost ctx creator ns payload artifact =>
    match (Bulletin.createPost ctx creator ns payload artifact s).1, (getActorDID ctx creator s).1 with
    | .ok _, .ok creatorDID => some ⟨generatePostId (getNamespaceId ns) payload, getNamespaceId ns, creatorDID, payload⟩
    | _, _ => none
  | _ => none

def createdPosts (s : State Γ) : List Msg → List Post
  | [] => []
  | msg :: rest => (msg.createdPost s).toList ++ createdPosts (step s msg) rest

/-- The posts listed for a namespace are those created in it: by `GetNamespacePosts`, on every page of the query, and on a
page that has room for all. -/
structure Isolated (s : State Γ) (created : List Post) (n : Bytes) : Prop where
  listed : ∀ post, post ∈ s.getNamespacePosts n ↔ post ∈ created ∧ post.namespaceId = n
  paged : ∀ ns page posts, getNamespaceId ns = n → s.namespacePosts ns page = .ok posts →
    ∀ post ∈ posts, post ∈ created ∧ post.namespaceId = n
  whole : ∀ ns page, getNamespaceId ns = n → page.key = [] → page.offset = 0 →
    (s.getNamespacePosts n).length ≤ page.limit →
      ∃ posts, s.namespacePosts ns page = .ok posts ∧ ∀ post, post ∈ posts ↔ post ∈ created ∧ post.namespaceId = n

/-! ## What is stored -/

/-- The store has the posts created so far, each under its own key. -/
structure Stored (s : State Γ) (created : List Post) : Prop where
  origin : ∀ k post, s.posts.get k = some post → post ∈ created ∧ k = postKey post.namespaceId post.id
  stored : ∀ post ∈ created, s.posts.get (postKey post.namespaceId post.id) = some post

variable {msg : Msg} {s : State Γ} {created : List Post}

theorem posts_of_handle {t : State Γ} {u : Unit} (h : (msg.handle : M Γ Unit).Succeeds s u t)
    (hm : msg.createdPost s = none) : t.posts = s.posts := by
  cases msg with
  | registerNamespace ctx creator ns =>
    obtain ⟨policyId, s₁, _, env, _, hen, -, -, rfl⟩ := registerNamespace_ok h
    rcases ensurePolicy_ok hen with ⟨-, rfl⟩ | ⟨-, env', -, rfl⟩
    · rfl
    · rfl
  | createPost ctx creator ns payload artifact =>
    obtain ⟨creatorDID, _, -, hd, -, -⟩ := createPost_ok h
    simp only [Msg.createdPost] at hm
    rw [show createPost ctx creator ns payload artifact s = _ from h, hd] at hm
    cases hm
  | addCollaborator ctx creator ns collaborator =>
    obtain ⟨_, _, _, env, _, -, -, -, -, -, rfl⟩ := addCollaborator_ok h
    rfl
  | removeCollaborator ctx creator ns collaborator =>
    obtain ⟨_, _, _, env, _, -, -, -, -, -, rfl⟩ := removeCollaborator_ok h
    rfl

theorem step_of_createdPost {post : Post} (h : msg.createdPost s = some post) :
    s.posts.get (postKey post.namespaceId post.id) = none ∧
      (step s msg).posts = s.posts.set (postKey post.namespaceId post.id) post := by
  cases msg with
  | createPost ctx creator ns payload artifact =>
    simp only [Msg.createdPost] at h
    split at h
    · rename_i u creatorDID hok hd
      obtain rfl := Option.some.inj h
      have hs := Eff.succeeds_of_fst_eq hok
      obtain ⟨creatorDID', _, -, hd', hnone, ht⟩ := createPost_ok hs
      obtain rfl : creatorDID = creatorDID' := Outcome.ok.inj (hd.symm.trans hd')
      refine ⟨hnone, ?_⟩
      have hco : step s (.createPost ctx creator ns payload artifact) = _ := hs.commit_eq
      rw [hco, ht]
    · cases h
  | registerNamespace ctx creator ns => cases h
  | addCollaborator ctx creator ns collaborator => cases h
  | removeCollaborator ctx creator ns collaborator => cases h

theorem Stored.step (h : Stored s created) (msg : Msg) : Stored (step s msg) (created ++ (msg.createdPost s).toList) := by
  cases hpos : msg.createdPost s with
  | none =>
    have hpo : (Bulletin.step s msg).posts = s.posts := by
      rcases Eff.commit_cases (msg.handle : M Γ Unit) s with hsame | ⟨u, hok⟩
      · rw [Bulletin.step, hsame]
      · exact posts_of_handle hok hpos
    rw [Option.toList_none, append_nil]
    exact ⟨fun k post hk => h.origin k post (hpo ▸ hk), fun post hp => hpo ▸ h.stored post hp⟩
  | some post =>
    obtain ⟨hnone, hpo⟩ := step_of_createdPost hpos
    rw [Option.toList_some]
    constructor
    · intro k post' hk
      rw [hpo, KVStore.get_set] at hk
      split at hk
      · rename_i hke
        obtain rfl := Option.some.inj hk
        exact ⟨mem_append_right _ mem_cons_self, hke⟩
      · obtain ⟨hmem, hke⟩ := h.origin k post' hk
        exact ⟨mem_append_left _ hmem, hke⟩
    · intro post' hpos'
      rw [hpo, KVStore.get_set]
      rcases mem_append.1 hpos' with hold | hnew
      · -- the key of an older post is taken, so it is not that of the new one
        have hget := h.stored post' hold
        rw [if_neg]
        · exact hget
        · intro hke
          rw [hke, hnone] at hget
          cases hget
      · obtain rfl := mem_singleton.1 hnew
        rw [if_pos rfl]

theorem stored_run (msgs : List Msg) (h : Stored s created) :
    Stored (Run.run step s msgs) (created ++ createdPosts s msgs) := by
  induction msgs generalizing s created with
  | nil =>
    rw [createdPosts, append_nil]
    exact h
  | cons msg rest ih =>
    have hrest := ih (h.step msg)
    rw [append_assoc] at hrest
    exact hrest

theorem stored_init (env : Γ.σ) : Stored (State.init env) [] :=
  ⟨fun _ _ h => (nomatch h), fun _ h => absurd h not_mem_nil⟩

theorem Stored.mem_getNamespacePosts (h : Stored s created) (n : Bytes) (post : Post) :
    post ∈ s.getNamespacePosts n ↔ post ∈ created ∧ sanitizeKeyPart n = sanitizeKeyPart post.namespaceId := by
  unfold State.getNamespacePosts
  rw [mem_listing]
  constructor
  · rintro ⟨k, hget, hke⟩
    obtain ⟨hmem, rfl⟩ := h.origin k post hget
    exact ⟨hmem, (startsWith_key_iff n post.namespaceId post.id).1 hke⟩
  · rintro ⟨hmem, hsame⟩
    exact ⟨_, h.stored post hmem, (startsWith_key_iff n post.namespaceId post.id).2 hsame⟩

/-! ## Isolation -/

theorem isolated_of_listed (laws : PageLaws Γ) {n : Bytes} (hn : s.hasNamespace n = true)
    (hl : ∀ post, post ∈ s.getNamespacePosts n ↔ post ∈ created ∧ post.namespaceId = n) : Isolated s created n := by
  refine ⟨hl, ?_, ?_⟩
  · rintro ns page posts rfl hp post hpo
    unfold State.namespacePosts at hp
    rw [if_pos hn] at hp
    cases hxs : Γ.paginate (listing s.posts (getNamespaceId ns)) page with
    | error e =>
      rw [hxs] at hp
      cases hp
    | ok xs =>
      rw [hxs] at hp
      obtain rfl : xs = posts := Except.ok.inj hp
      exact (hl post).1 (laws.mem _ _ _ hxs post hpo)
  · rintro ns page rfl hke hof hli
    refine ⟨s.getNamespacePosts (getNamespaceId ns), ?_, hl⟩
    unfold State.namespacePosts
    rw [if_pos hn, show Γ.paginate (listing s.posts (getNamespaceId ns)) page = _ from
      laws.whole _ page hke hof hli]
    rfl

/-- After any run, a registered namespace is isolated exactly when no post was created in another whose id differs from its own
in slashes and bars only. -/
theorem namespace_isolated_iff (laws : PageLaws Γ) (env : Γ.σ) (msgs : List Msg) (n : Bytes)
    (hn : (Run.run step (State.init env) msgs).hasNamespace n = true) :
    Isolated (Run.run step (State.init env) msgs) (createdPosts (State.init env) msgs) n ↔
      ∀ post ∈ createdPosts (State.init env) msgs, sanitizeKeyPart post.namespaceId = sanitizeKeyPart n →
        post.namespaceId = n := by
  have hstored := stored_run msgs (stored_init env)
  rw [nil_append] at hstored
  constructor
  · intro h post hp hsame
    exact ((h.listed post).1 ((hstored.mem_getNamespacePosts n post).2 ⟨hp, hsame.symm⟩)).2
  · intro h
    refine isolated_of_listed laws hn fun post => ?_
    rw [hstored.mem_getNamespacePosts]
    constructor
    · rintro ⟨hmem, hsame⟩
      exact ⟨hmem, h post hmem hsame.symm⟩
    · rintro ⟨hmem, rfl⟩
      exact ⟨hmem, rfl⟩

/-! ## Posts last -/

theorem id_of_mem_createdPosts {post : Post} {msgs : List Msg} (h : post ∈ createdPosts s msgs) :
    post.id = generatePostId post.namespaceId post.payload := by
  induction msgs generalizing s with
  | nil => cases h
  | cons msg rest ih =>
    rcases mem_append.1 h with hnew | hrest
    · cases msg with
      | createPost ctx creator ns payload artifact =>
        simp only [Msg.createdPost, Option.mem_toList] at hnew
        split at hnew
        · rw [← Option.some.inj hnew]
        · cases hnew
      | _ => cases hnew
    · exact ih hrest

/-- Whatever is sent before and after, a stored post has the hash of its namespace and its payload in its key, and the same post
is under that key for ever. -/
theorem posts_permanent (env : Γ.σ) (msgs later : List Msg) :
    (Run.run step (State.init env) msgs).posts.All fun key post =>
      key = postKey post.namespaceId (generatePostId post.namespaceId post.payload) ∧
        (Run.run step (State.init env) (msgs ++ later)).posts.get key = some post := by
  intro key post hget
  have hnow := stored_run msgs (stored_init env)
  obtain ⟨hmem, rfl⟩ := hnow.origin key post hget
  refine ⟨by rw [id_of_mem_createdPosts hmem], ?_⟩
  rw [Run.run_append]
  exact (stored_run later hnow).stored post (mem_append_left _ hmem)

/-! ## A local chain -/

/-- The owners and the collaborators of namespaces. -/
structure Acp where
  owners : List (Bytes × Bytes)
  collaborators : List (Bytes × Bytes)
  deriving Repr, DecidableEq

/-- A command by an actor; relationships are for the owner of a namespace to change. -/
def Acp.cmd (actorDID : Bytes) : PolicyCmd → Eff Acp Bytes Unit
  | .registerObject n => do
    let c ← Eff.read
    Eff.require (n ∉ c.owners.map Prod.fst) (str "object already registered")
    Eff.modify fun c => { c with owners := (n, actorDID) :: c.owners }
  | .setRelationship n d => do
    let c ← Eff.read
    Eff.require ((n, actorDID) ∈ c.owners) (str "unauthorized")
    Eff.modify fun c => { c with collaborators := (n, d) :: c.collaborators }
  | .deleteRelationship n d => do
    let c ← Eff.read
    Eff.require ((n, actorDID) ∈ c.owners) (str "unauthorized")
    Eff.modify fun c => { c with collaborators := c.collaborators.filter fun r => r ≠ (n, d) }

/-- One policy, with the DID of an account made from its address. -/
def localAcp : Env where
  σ := Acp
  issueDIDFromAccountAddr _ address := .ok (str "did:key:" ++ Bytes.hex address)
  createModulePolicy := do
    Eff.modify fun _ => ⟨[], []⟩
    pure (str "policy")
  fetchCapability _ _ := .ok ()
  modulePolicyCmd _ cmd actorDID _ := Acp.cmd actorDID cmd
  verifyCreatePost c _ n actorDID := .ok (decide ((n, actorDID) ∈ c.owners ∨ (n, actorDID) ∈ c.collaborators))
  paginate xs page := .ok ((xs.drop page.offset).take page.limit)

theorem localAcp_pageLaws : PageLaws localAcp where
  mem := by
    intro α xs ys page h y hy
    obtain rfl : (xs.drop page.offset).take page.limit = ys := Except.ok.inj h
    exact mem_of_mem_drop (mem_of_mem_take hy)
  whole := by
    intro α xs page _ hof hl
    show Except.ok ((xs.drop page.offset).take page.limit) = Except.ok xs
    rw [hof, drop_zero, take_of_length_le hl]

def now : Ctx := ⟨Time.ofUnix 1700000000, none⟩

/-- Two namespaces whose names differ in a slash, and a post in the first. -/
def slashAndBar : List Msg :=
  [.registerNamespace now (str "alice") (str "a/b"), .registerNamespace now (str "bob") (str "a|b"),
    .createPost now (str "alice") (str "a/b") (str "hello") []]

/-- Two namespaces with unlike names, and a post in the first. -/
def unlikeNames : List Msg :=
  [.registerNamespace now (str "alice") (str "a"), .registerNamespace now (str "bob") (str "b"),
    .createPost now (str "alice") (str "a") (str "hello") []]

/-- A post in a namespace with another name is not listed. -/
theorem namespace_isolated_iff_unlikeNames :
    let s : State localAcp := State.init (⟨[], []⟩ : Acp)
    (createdPosts s unlikeNames).length = 1 ∧ (Run.run step s unlikeNames).hasNamespace (str "bulletin/b") = true ∧
      Isolated (Run.run step s unlikeNames) (createdPosts s unlikeNames) (str "bulletin/b") := by
  refine ⟨by decide +kernel, by decide +kernel, ?_⟩
  exact (namespace_isolated_iff localAcp_pageLaws (⟨[], []⟩ : Acp) unlikeNames (str "bulletin/b") (by decide +kernel)).2
    (by decide +kernel)

/-- The post in the first namespace is listed for the second. -/
theorem namespace_isolated_false :
    let s : State localAcp := State.init (⟨[], []⟩ : Acp)
    (Run.run step s slashAndBar).hasNamespace (str "bulletin/a|b") = true ∧
      ¬Isolated (Run.run step s slashAndBar) (createdPosts s slashAndBar) (str "bulletin/a|b") := by
  refine ⟨by decide +kernel, fun h => ?_⟩
  have hl : ∀ post ∈ (Run.run step (State.init (Γ := localAcp) (⟨[], []⟩ : Acp)) slashAndBar).getNamespacePosts
      (str "bulletin/a|b"), post.namespaceId = str "bulletin/a|b" := fun post hp => ((h.listed post).1 hp).2
  exact absurd hl (by decide +kernel)

end Vera.Bulletin
