import Vera.Acp.Types
import Vera.Lib.Merkle
import Vera.Lib.Sha256

/-!
# Commitments to objects

An actor commits to objects before registering them by publishing the root of a Merkle tree, and later opens the commitment
for one object (`x/acp/commitment/commitment.go`). The leaf of an object is the concatenation of the policy id, the resource,
the object id and the actor id, with nothing between them. The tree binds the leaf, and the leaf binds the resource followed by
the object id; where one ends and the other starts is left to the opening.
-/

namespace Vera.Acp.Commitment

open List Outcome
open Bytes (str)
open Merkle (leafMessage innerMessage)

/-- An opening of a commitment for one object. -/
structure RegistrationProof where
  object : Option Object
  merkleProof : List Bytes
  leafCount : UInt64
  leafIndex : UInt64
  deriving Repr, DecidableEq

/-- A proof of the Merkle library, with the siblings from the leaf up. -/
structure MerkleProof where
  total : Int
  index : Int
  leafHash : Bytes
  aunts : List Bytes

def MerkleProof.verify (proof : MerkleProof) (root leaf : Bytes) : Bool :=
  decide (0 ≤ proof.total ∧ 0 ≤ proof.index ∧ proof.leafHash = Sha256.sum256 (leafMessage leaf) ∧
    Merkle.rootFromAunts Sha256.sum256 proof.leafHash proof.aunts.reverse proof.index.toNat proof.total.toNat = some root)

@[irreducible] def toInt64 (n : UInt64) : Int := Int.bmod n.toNat (2 ^ 64)

def generateLeafValue (policyId : Bytes) (actor : Actor) (o : Object) : Bytes :=
  policyId ++ o.resource ++ o.id ++ actor.id

def produceLeafHash (policyId : Bytes) (actor : Actor) (o : Object) : Bytes :=
  Sha256.sum256 (leafMessage (generateLeafValue policyId actor o))

def badInput (message : String) : Error := .wrap (str message) (.kind .badInput) []

def commitmentBytes : Nat := 32

/-- The proof that an opening makes of an object. -/
def RegistrationProof.proof (opening : RegistrationProof) (policyId : Bytes) (actor : Actor) (o : Object) : MerkleProof where
  total := toInt64 opening.leafCount
  index := toInt64 opening.leafIndex
  leafHash := produceLeafHash policyId actor o
  aunts := opening.merkleProof

/-- Whether an opening is valid for a root, a policy and an actor; a malformed opening is an error. -/
def verifyProof (root policyId : Bytes) (actor : Option Actor) (opening : Option RegistrationProof) : Outcome Error Bool := do
  let actor ← Outcome.ofOption (badInput "invalid actor") actor
  Outcome.require (actor.id ≠ []) (badInput "invalid actor")
  Outcome.require (root.length = commitmentBytes) (badInput "invalid root commitment")
  let opening ← Outcome.ofOption (badInput "invalid opening") opening
  let o ← Outcome.ofOption (badInput "invalid opening") opening.object
  Outcome.require (o.id ≠ [] ∧ o.resource ≠ []) (badInput "invalid opening")
  pure ((opening.proof policyId actor o).verify root (generateLeafValue policyId actor o))

/-- A tree over the objects that an actor commits to; there is at least one. -/
structure RegistrationCommitmentTree where
  policyId : Bytes
  actor : Actor
  objs : List Object
  objs_ne_nil : objs ≠ []

namespace RegistrationCommitmentTree

variable (t : RegistrationCommitmentTree)

def leaves : List Bytes := t.objs.map (generateLeafValue t.policyId t.actor)

def merkle : Merkle.Tree := .ofLeaves t.leaves

def commitment : Bytes := t.merkle.root Sha256.sum256

def proofForIdx (idx : Int) : Outcome Error RegistrationProof :=
  if (t.objs.length : Int) ≤ idx ∨ idx < 0 then .err (badInput "index out of bounds:")
  else .ok {
    object := t.objs[idx.toNat]?
    merkleProof := (t.merkle.path Sha256.sum256 idx.toNat).reverse
    leafCount := UInt64.ofNat t.objs.length
    leafIndex := UInt64.ofNat idx.toNat }

def findIdx (obj : Object) : Outcome Error Nat :=
  Outcome.ofOption (badInput "proof does not contain object") (t.objs.findIdx? fun o => obj = o)

def getProofForObj (obj : Object) : Outcome Error RegistrationProof := do
  let idx ← t.findIdx obj
  t.proofForIdx idx

end RegistrationCommitmentTree

def newObjectCommitmentTree (policyId : Bytes) (actor : Option Actor) (objs : List Object) :
    Outcome Error RegistrationCommitmentTree :=
  if h : objs = [] then .err (badInput "cannot generate commitment to empty object set")
  else deref actor >>= fun actor => .ok ⟨policyId, actor, objs, h⟩

/-- The commitment to the given objects. It is not checked that they are registered or valid under the policy. -/
def generateCommitmentWithoutValidation (policyId : Bytes) (actor : Option Actor) (objs : List Object) :
    Outcome Error Bytes := do
  let t ← newObjectCommitmentTree policyId actor objs
  pure t.commitment

/-- The opening for one of the given objects. -/
def proofForObject (policyId : Bytes) (actor : Option Actor) (idx : Int) (objs : List Object) :
    Outcome Error RegistrationProof := do
  let t ← newObjectCommitmentTree policyId actor objs
  t.proofForIdx idx

/-! ### What an accepted opening shows -/

/-- The strings hashed for the commitment to a list of objects. -/
def commitmentMessages (policyId : Bytes) (actor : Actor) (objs : List Object) : List Bytes :=
  (Merkle.Tree.ofLeaves (objs.map (generateLeafValue policyId actor))).messages Sha256.sum256

def RegistrationCommitmentTree.messages (t : RegistrationCommitmentTree) : List Bytes :=
  commitmentMessages t.policyId t.actor t.objs

/-- The strings hashed to check an opening of an object. -/
def RegistrationProof.messages (opening : RegistrationProof) (policyId : Bytes) (actor : Actor) (o : Object) : List Bytes :=
  Merkle.pathMessages Sha256.sum256 (generateLeafValue policyId actor o) opening.merkleProof.reverse
    (toInt64 opening.leafIndex).toNat (toInt64 opening.leafCount).toNat

theorem toInt64_ofNat {n : Nat} (h : n < 2 ^ 63) : toInt64 (UInt64.ofNat n) = n := by
  have hn : (UInt64.ofNat n).toNat = n := UInt64.toNat_ofNat_of_lt' (by unfold UInt64.size; omega)
  unfold toInt64
  rw [hn]
  simp only [Int.bmod_def]
  omega

variable {policyId root : Bytes} {actor : Actor} {o : Object} {objs : List Object}

/-- Under one policy and one actor, two objects have the same leaf exactly when the resource followed by the object id is the
same. -/
theorem generateLeafValue_inj {o' : Object} :
    generateLeafValue policyId actor o = generateLeafValue policyId actor o' ↔ o.resource ++ o.id = o'.resource ++ o'.id := by
  rw [generateLeafValue, generateLeafValue, append_left_inj, append_assoc, append_assoc, append_right_inj]

theorem verifyProof_eq_true {opening : RegistrationProof} (ho : opening.object = some o) :
    verifyProof root policyId (some actor) (some opening) = .ok true ↔
      actor.id ≠ [] ∧ root.length = commitmentBytes ∧ (o.id ≠ [] ∧ o.resource ≠ []) ∧
      (0 ≤ toInt64 opening.leafCount ∧ 0 ≤ toInt64 opening.leafIndex) ∧
      Merkle.rootFromAunts Sha256.sum256 (produceLeafHash policyId actor o) opening.merkleProof.reverse
        (toInt64 opening.leafIndex).toNat (toInt64 opening.leafCount).toNat = some root := by
  have hcheck : (opening.proof policyId actor o).verify root (generateLeafValue policyId actor o) = true ↔
      (0 ≤ toInt64 opening.leafCount ∧ 0 ≤ toInt64 opening.leafIndex) ∧
      Merkle.rootFromAunts Sha256.sum256 (produceLeafHash policyId actor o) opening.merkleProof.reverse
        (toInt64 opening.leafIndex).toNat (toInt64 opening.leafCount).toNat = some root := by
    refine decide_eq_true_iff.trans ⟨?_, ?_⟩
    · rintro ⟨ht, hin, -, hr⟩
      exact ⟨⟨ht, hin⟩, hr⟩
    · rintro ⟨⟨ht, hin⟩, hr⟩
      exact ⟨ht, hin, rfl, hr⟩
  rw [← hcheck]
  simp only [verifyProof, bind_eq_ok, ofOption_eq_ok, require_eq_ok, pure_eq_ok]
  constructor
  · rintro ⟨_, ⟨⟩, _, ha, _, hro, _, ⟨⟩, _, hob, _, hne, hv⟩
    obtain rfl := Option.some.inj (ho.symm.trans hob)
    exact ⟨ha, hro, hne, hv⟩
  · rintro ⟨ha, hro, hne, hv⟩
    exact ⟨actor, rfl, (), ha, (), hro, opening, rfl, o, ho, (), hne, hv⟩

namespace RegistrationCommitmentTree

variable {t : RegistrationCommitmentTree} {o o' : Object}

theorem leaves_ne_nil (t : RegistrationCommitmentTree) : t.leaves ≠ [] := fun h => t.objs_ne_nil (map_eq_nil_iff.1 h)

theorem length_commitment (t : RegistrationCommitmentTree) : t.commitment.length = commitmentBytes :=
  Merkle.length_root Sha256.length_sum256 t.merkle

/-- An accepted opening is for an object whose resource and id run together as those of an object of the tree do. -/
theorem exists_of_verifyProof {opening : RegistrationProof} (ho : opening.object = some o)
    (hf : Sha256.CollisionFree (t.messages ++ opening.messages t.policyId t.actor o))
    (h : verifyProof t.commitment t.policyId (some t.actor) (some opening) = .ok true) :
    ∃ o' ∈ t.objs, o'.resource ++ o'.id = o.resource ++ o.id := by
  obtain ⟨-, -, -, -, hr⟩ := (verifyProof_eq_true ho).1 h
  have hl : generateLeafValue t.policyId t.actor o ∈ t.merkle.leaves := by
    refine Merkle.mem_leaves_of_rootFromAunts Sha256.length_sum256 (fun m hm m' hm' => ?_) hr
    exact hf m (mem_append_right _ hm) m' (mem_append_left _ hm')
  rw [merkle, Merkle.Tree.leaves_ofLeaves t.leaves_ne_nil] at hl
  obtain ⟨o', ho', heq⟩ := mem_map.1 hl
  exact ⟨o', ho', generateLeafValue_inj.1 heq⟩

/-- The opening made for an object of the tree is accepted, also for every other object whose resource and id run together in
the same way, and checking it hashes nothing that was not hashed for the tree. -/
theorem verifyProof_of_proofForIdx (hlen : t.objs.length < 2 ^ 63) (hac : t.actor.id ≠ []) {i : Nat}
    (hget : t.objs[i]? = some o') (hsame : o'.resource ++ o'.id = o.resource ++ o.id) (hne : o.id ≠ [] ∧ o.resource ≠ []) :
    ∃ p, t.proofForIdx i = .ok p ∧ p.object = some o' ∧
      verifyProof t.commitment t.policyId (some t.actor) (some { p with object := some o }) = .ok true ∧
      { p with object := some o }.messages t.policyId t.actor o ⊆ t.messages := by
  have hi : i < t.objs.length := (List.getElem?_eq_some_iff.1 hget).1
  have hl : t.merkle.leaves = t.leaves := Merkle.Tree.leaves_ofLeaves t.leaves_ne_nil
  have hcou : t.merkle.leaves.length = t.objs.length := by rw [hl, leaves, length_map]
  have hlea : t.merkle.leaves[i]? = some (generateLeafValue t.policyId t.actor o) := by
    rw [hl, leaves, List.getElem?_map, hget, Option.map_some, generateLeafValue_inj.2 hsame]
  have hs : t.merkle.Shaped := Merkle.Tree.shaped_ofLeaves t.leaves_ne_nil
  let p : RegistrationProof :=
    ⟨t.objs[i]?, (t.merkle.path Sha256.sum256 i).reverse, UInt64.ofNat t.objs.length, UInt64.ofNat i⟩
  have hco : toInt64 p.leafCount = t.objs.length := toInt64_ofNat hlen
  have hin : toInt64 p.leafIndex = i := toInt64_ofNat (hi.trans hlen)
  have ha : p.merkleProof.reverse = t.merkle.path Sha256.sum256 i := reverse_reverse _
  refine ⟨p, if_neg (by omega), hget, (verifyProof_eq_true rfl).2 ⟨hac, t.length_commitment, hne, ?_, ?_⟩, ?_⟩
  · exact ⟨hco ▸ Int.natCast_nonneg _, hin ▸ Int.natCast_nonneg _⟩
  · rw [hco, hin, Int.toNat_natCast, Int.toNat_natCast, ha, ← hcou]
    exact Merkle.rootFromAunts_path hs hlea
  · rw [RegistrationProof.messages, hco, hin, Int.toNat_natCast, Int.toNat_natCast, ha, ← hcou]
    exact Merkle.pathMessages_path_subset hs hlea

end RegistrationCommitmentTree

/-! ### What a commitment binds -/

theorem generateCommitmentWithoutValidation_eq_ok :
    generateCommitmentWithoutValidation policyId (some actor) objs = .ok root ↔
      ∃ h : objs ≠ [], RegistrationCommitmentTree.commitment ⟨policyId, actor, objs, h⟩ = root := by
  unfold generateCommitmentWithoutValidation newObjectCommitmentTree
  by_cases h : objs = []
  · rw [dif_pos h]
    exact ⟨(nomatch ·), fun ⟨hne, _⟩ => absurd h hne⟩
  · rw [dif_neg h]
    exact ⟨fun hok => ⟨h, Outcome.ok.inj hok⟩, fun ⟨_, hr⟩ => hr ▸ rfl⟩

/-- Every object of a commitment can be opened: the opening made for it is accepted against the commitment. -/
theorem verifyProof_proofForObject {i : Nat}
    (hl : objs.length < 2 ^ 63) (ha : actor.id ≠ []) (hget : objs[i]? = some o) (hne : o.id ≠ [] ∧ o.resource ≠ []) :
    ∃ root p, generateCommitmentWithoutValidation policyId (some actor) objs = .ok root ∧
      proofForObject policyId (some actor) i objs = .ok p ∧ p.object = some o ∧
      verifyProof root policyId (some actor) (some p) = .ok true := by
  have hni : objs ≠ [] := ne_nil_of_mem (mem_of_getElem? hget)
  let t : RegistrationCommitmentTree := ⟨policyId, actor, objs, hni⟩
  obtain ⟨p, hp, hob, hok, -⟩ := t.verifyProof_of_proofForIdx hl ha hget rfl hne
  refine ⟨t.commitment, p, generateCommitmentWithoutValidation_eq_ok.2 ⟨hni, rfl⟩, ?_, hob, ?_⟩
  · rw [proofForObject, newObjectCommitmentTree, dif_neg hni]
    exact hp
  · rwa [← hob] at hok

/-- Every index into a list of objects can be opened: the opening that is made for it is accepted against the commitment to the
list, by the same actor under the same policy. The length of a list of objects is a number of 63 bits, as that of a slice. -/
theorem committed_object_opens (policyId : Bytes) (actor : Actor) (hactor : actor.id ≠ []) (objs : List Object)
    (hlen : objs.length < 2 ^ 63) (hobjs : ∀ o ∈ objs, o.id ≠ [] ∧ o.resource ≠ []) (idx : Int)
    (hidx : 0 ≤ idx ∧ idx < objs.length) :
    ∃ root proof o, generateCommitmentWithoutValidation policyId (some actor) objs = .ok root ∧
      proofForObject policyId (some actor) idx objs = .ok proof ∧ objs[idx.toNat]? = some o ∧ proof.object = some o ∧
      verifyProof root policyId (some actor) (some proof) = .ok true := by
  obtain ⟨i, rfl⟩ := Int.eq_ofNat_of_zero_le hidx.1
  have hi : i < objs.length := Int.ofNat_lt.1 hidx.2
  have hget : objs[i]? = some (objs.get ⟨i, hi⟩) := List.getElem?_eq_getElem hi
  have hne := hobjs _ (objs.get_mem ⟨i, hi⟩)
  obtain ⟨root, proof, hr, hp, hob, hv⟩ := @verifyProof_proofForObject policyId _ _ _ _ hlen hactor hget hne
  exact ⟨root, proof, _, hr, hp, hget, hob, hv⟩

/-- What a commitment binds: every opening accepted for an object shows that the object was committed to, if and only if the
object was committed to as soon as a committed object has the same resource and id run together. A nameless actor, resource
or object is never accepted. -/
theorem commitment_binding {policyId root : Bytes} {actor : Actor} {objs : List Object} (hlen : objs.length < 2 ^ 63)
    (hgen : generateCommitmentWithoutValidation policyId (some actor) objs = .ok root)
    (hfree : Sha256.CollisionFree (commitmentMessages policyId actor objs)) (o : Object) :
    (∀ opening : RegistrationProof, opening.object = some o →
      Sha256.CollisionFree (commitmentMessages policyId actor objs ++ opening.messages policyId actor o) →
      verifyProof root policyId (some actor) (some opening) = .ok true → o ∈ objs) ↔
    (actor.id ≠ [] → o.id ≠ [] ∧ o.resource ≠ [] → ∀ o' ∈ objs, o'.resource ++ o'.id = o.resource ++ o.id → o ∈ objs) := by
  obtain ⟨hne, rfl⟩ := generateCommitmentWithoutValidation_eq_ok.1 hgen
  let t : RegistrationCommitmentTree := ⟨policyId, actor, objs, hne⟩
  constructor
  · intro hb ha hob o' ho' hsame
    -- the opening of the committed object opens the other one too, and hashes nothing new
    obtain ⟨i, hget⟩ := mem_iff_getElem?.1 ho'
    obtain ⟨p, -, -, hok, hs⟩ := t.verifyProof_of_proofForIdx hlen ha hget hsame hob
    refine hb _ rfl (fun m hm m' hm' => ?_) hok
    have hmem : ∀ m ∈ t.messages ++ { p with object := some o }.messages policyId actor o, m ∈ t.messages := by
      intro m hm
      exact (mem_append.1 hm).elim id fun h => hs h
    exact hfree m (hmem m hm) m' (hmem m' hm')
  · intro hco opening ho hfree' hok
    obtain ⟨ha, -, hob, -, -⟩ := (verifyProof_eq_true ho).1 hok
    obtain ⟨o', ho', hsame⟩ := t.exists_of_verifyProof ho hfree' hok
    exact hco ha hob o' ho' hsame

def bob : Actor := ⟨str "did:example:bob"⟩

def evenObjects : RegistrationCommitmentTree where
  policyId := str "095d86e5"
  actor := bob
  objs := [⟨str "file", str "foo"⟩, ⟨str "file", str "tester"⟩]
  objs_ne_nil := by decide

def oddObjects : List Object := [⟨str "file", str "bar"⟩, ⟨str "file", str "deez"⟩, ⟨str "file", str "zaz"⟩]

/-- The last of three objects is opened. -/
theorem committed_object_opens_odd :
    ∃ root proof o, generateCommitmentWithoutValidation (str "095d86e5") (some bob) oddObjects = .ok root ∧
      proofForObject (str "095d86e5") (some bob) 2 oddObjects = .ok proof ∧ oddObjects[2]? = some o ∧ proof.object = some o ∧
      verifyProof root (str "095d86e5") (some bob) (some proof) = .ok true :=
  committed_object_opens (str "095d86e5") bob (by decide) oddObjects (by decide) (by decide) 2 (by decide)

/-- A commitment to two objects is opened for the second one with its id starting one letter earlier. -/
theorem commitment_binding_false :
    ∃ (policyId root : Bytes) (actor : Actor) (objs : List Object) (o : Object) (opening : RegistrationProof),
      generateCommitmentWithoutValidation policyId (some actor) objs = .ok root ∧ opening.object = some o ∧
      Sha256.CollisionFree (commitmentMessages policyId actor objs ++ opening.messages policyId actor o) ∧
      verifyProof root policyId (some actor) (some opening) = .ok true ∧ o ∉ objs := by
  let first := produceLeafHash evenObjects.policyId bob ⟨str "file", str "foo"⟩
  refine ⟨evenObjects.policyId, evenObjects.commitment, bob, evenObjects.objs, ⟨str "fil", str "etester"⟩,
    ⟨some ⟨str "fil", str "etester"⟩, [first], 2, 1⟩, ?_, rfl, ?_, ?_, ?_⟩
  · exact generateCommitmentWithoutValidation_eq_ok.2 ⟨evenObjects.objs_ne_nil, rfl⟩
  · decide +kernel
  · decide +kernel
  · decide

/-- A commitment binds an object whose resource and id run together as those of no committed object do. -/
theorem commitment_binding_bar :
    generateCommitmentWithoutValidation evenObjects.policyId (some bob) evenObjects.objs = .ok evenObjects.commitment ∧
    ∀ opening : RegistrationProof, opening.object = some ⟨str "file", str "bar"⟩ →
      Sha256.CollisionFree (commitmentMessages evenObjects.policyId bob evenObjects.objs ++
        opening.messages evenObjects.policyId bob ⟨str "file", str "bar"⟩) →
      verifyProof evenObjects.commitment evenObjects.policyId (some bob) (some opening) = .ok true →
      (⟨str "file", str "bar"⟩ : Object) ∈ evenObjects.objs := by
  have hg : generateCommitmentWithoutValidation evenObjects.policyId (some bob) evenObjects.objs =
      .ok evenObjects.commitment := generateCommitmentWithoutValidation_eq_ok.2 ⟨evenObjects.objs_ne_nil, rfl⟩
  refine ⟨hg, (commitment_binding (by decide) hg (by decide +kernel) ⟨str "file", str "bar"⟩).2 fun _ _ => ?_⟩
  decide

end Vera.Acp.Commitment
