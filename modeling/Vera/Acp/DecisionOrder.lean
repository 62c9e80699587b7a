import Mathlib.Data.List.Lex
import Mathlib.Data.List.Permutation
import Mathlib.Data.Set.List
import Vera.Acp.AccessTicket
import Vera.Lib.StableSort

/-!
# The order of the operations of a decision

The operations are sorted before they are hashed, so that the id of a decision does not depend on their order
(`x/acp/types/access_decision.go`). An operation counts as less than another only if all three of its fields are less, so most
operations cannot be compared, and a stable sort leaves those in the order of the request.
-/

namespace Vera.Acp

open Bytes (str)

/-- What is written of an operation, as one string. -/
def HashedOperation.word (op : HashedOperation) : Bytes := op.texts.flatten

theorem flatten_operationTexts (ops : List HashedOperation) :
    (operationTexts ops).flatten = ops.flatMap HashedOperation.word := by
  induction ops with
  | nil => rfl
  | cons op rest ih =>
    rw [operationTexts, List.flatMap_cons, List.flatten_append, List.flatMap_cons, ← ih]
    rfl

theorem operationLess_iff {x y : HashedOperation} :
    operationLess x y = true ↔ x.resource < y.resource ∧ x.id < y.id ∧ x.permission < y.permission := by
  simp [operationLess, and_assoc]

/-- The comparison of operations is a strict partial order, and an operation without any text is less than all that are greater
than some. -/
theorem comparison_operationLess : StableSort.Comparison operationLess HashedOperation.word where
  asymm x y h := by
    refine Bool.eq_false_iff.2 fun h' => ?_
    exact List.lt_asymm (operationLess_iff.1 h).1 (operationLess_iff.1 h').1
  trans x y z h h' := by
    obtain ⟨hr, hid, hp⟩ := operationLess_iff.1 h
    obtain ⟨hr', hid', hp'⟩ := operationLess_iff.1 h'
    exact operationLess_iff.2 ⟨List.lt_trans hr hr', List.lt_trans hid hid', List.lt_trans hp hp'⟩
  empty u x y hu h := by
    have hpo : ∀ {a b : Bytes}, a < b → ([] : Bytes) < b := by
      intro a b hlt
      cases b with
      | nil => exact absurd hlt (List.not_lt_nil a)
      | cons c rest => exact List.nil_lt_cons c rest
    obtain ⟨hr, hid, hp⟩ := operationLess_iff.1 h
    obtain ⟨resource, id, permission⟩ := u
    have hempty : resource ++ (id ++ (permission ++ [])) = [] := hu
    simp only [List.append_eq_nil_iff, and_true] at hempty
    obtain ⟨rfl, rfl, rfl⟩ := hempty
    exact operationLess_iff.2 ⟨hpo hr, hpo hid, hpo hp⟩

theorem resource_of_operationLess (x y : HashedOperation) (h : operationLess x y = true) :
    x.resource.map UInt8.toNat < y.resource.map UInt8.toNat :=
  List.map_lt (fun _ _ hlt => UInt8.lt_iff_toNat_lt.1 hlt) (operationLess_iff.1 h).1

/-! ## Decisions with the operations in another order -/

/-- The pointers of a decision are all set, and its operations have the given fields. -/
structure AccessDecision.Reads (d : AccessDecision) (ops : List HashedOperation) (creationTime : Timestamp)
    (params : DecisionParams) : Prop where
  operations : d.operations = ops.map HashedOperation.toOperation
  creationTime : d.creationTime = some creationTime
  params : d.params = some params

/-- The strings that are hashed for a decision with its operations in any order. -/
def AccessDecision.orderings (Γ : DecisionEnv) (d : AccessDecision) (creationTime : Timestamp) (params : DecisionParams)
    (ops : List HashedOperation) : List Bytes :=
  ops.permutations.map (d.preimage Γ creationTime params)

section Order

variable {ε : Type} {Γ : DecisionEnv} {d : AccessDecision} {ops ops' : List HashedOperation} {creationTime : Timestamp}
  {params : DecisionParams}

theorem mem_orderings (h : ops'.Perm ops) : d.preimage Γ creationTime params ops' ∈ d.orderings Γ creationTime params ops :=
  List.mem_map.2 ⟨ops', List.mem_permutations.2 h, rfl⟩

theorem preimage_eq_iff : d.preimage Γ creationTime params ops' = d.preimage Γ creationTime params ops ↔
      (Γ.sortStable operationLess ops').flatMap HashedOperation.word =
        (Γ.sortStable operationLess ops).flatMap HashedOperation.word := by
  simp only [AccessDecision.preimage, flatten_operationTexts, List.append_cancel_right_eq, List.append_cancel_left_eq]

theorem same_word_of_settled (laws : StableSort.Laws Γ.sortStable)
    (hs : StableSort.Settled operationLess HashedOperation.word ops) (hp : ops'.Perm ops) :
    (Γ.sortStable operationLess ops').flatMap HashedOperation.word =
      (Γ.sortStable operationLess ops).flatMap HashedOperation.word :=
  (laws.same_word_iff comparison_operationLess resource_of_operationLess ops).2 hs ops' hp

theorem perm_map_toOperation {l : List Operation} : l.Perm (ops.map HashedOperation.toOperation) ↔
      ∃ ops' : List HashedOperation, ops'.Perm ops ∧ l = ops'.map HashedOperation.toOperation := by
  constructor
  · intro h
    have hr : l ∈ Set.range (List.map HashedOperation.toOperation) := by
      rw [Set.range_list_map]
      intro op hop
      obtain ⟨x, -, rfl⟩ := List.mem_map.1 (h.mem_iff.1 hop)
      exact ⟨x, rfl⟩
    obtain ⟨ops', rfl⟩ := hr
    exact ⟨ops', (List.map_perm_map_iff toOperation_injective).1 h, rfl⟩
  · rintro ⟨ops', hp, rfl⟩
    exact hp.map _

theorem AccessDecision.Reads.produceId (h : d.Reads ops creationTime params) :
    (Acp.produceId Γ d : Outcome ε Bytes) = .ok (Base32.encode (Sha256.sum256 (d.preimage Γ creationTime params ops))) :=
  produceId_eq_ok.2 ⟨ops, creationTime, params, h.operations, h.creationTime, h.params, rfl⟩

/-- Two orders give the same id exactly when they give the same string, if no two orders collide. -/
theorem AccessDecision.Reads.produceId_eq_iff (h : d.Reads ops creationTime params)
    (hf : Sha256.CollisionFree (d.orderings Γ creationTime params ops)) (hp : ops'.Perm ops) :
    (Acp.produceId Γ { d with operations := ops'.map HashedOperation.toOperation } : Outcome ε Bytes) = Acp.produceId Γ d ↔
      (Γ.sortStable operationLess ops').flatMap HashedOperation.word =
        (Γ.sortStable operationLess ops).flatMap HashedOperation.word := by
  have hot : ({ d with operations := ops'.map HashedOperation.toOperation } : AccessDecision).Reads ops' creationTime params :=
    ⟨rfl, h.creationTime, h.params⟩
  rw [h.produceId, hot.produceId, ← @preimage_eq_iff Γ d ops ops' creationTime params]
  constructor
  · intro heq
    have hd := Base32.encode_injective (by rw [Sha256.length_sum256, Sha256.length_sum256]) (Outcome.ok.inj heq)
    exact hf _ (mem_orderings hp) _ (mem_orderings (List.Perm.refl ops)) hd
  · intro heq
    exact congrArg (fun s => Outcome.ok (Base32.encode (Sha256.sum256 s))) heq

theorem readOperations_panics {l : List Operation} (h : ∀ ops : List HashedOperation, l ≠ ops.map HashedOperation.toOperation) :
    (readOperations l : Outcome ε _) = .panic "invalid memory address or nil pointer dereference" := by
  induction l with
  | nil => exact absurd rfl (h [])
  | cons op rest ih =>
    obtain ⟨object, permission⟩ := op
    cases object with
    | none => rfl
    | some object =>
      have hrest : ∀ ops : List HashedOperation, rest ≠ ops.map HashedOperation.toOperation := by
        rintro ops rfl
        exact h (⟨object.resource, object.id, permission⟩ :: ops) rfl
      simp only [readOperations, deref, ih hrest]
      rfl

theorem produceId_panics (h : ∀ ops creationTime params, ¬ d.Reads ops creationTime params) :
    (Acp.produceId Γ d : Outcome ε Bytes) = .panic "invalid memory address or nil pointer dereference" := by
  by_cases hop : ∃ ops : List HashedOperation, d.operations = ops.map HashedOperation.toOperation
  · obtain ⟨ops, hop⟩ := hop
    have hr := readOperations_eq_ok (ε := ε).2 hop
    cases ht : d.creationTime with
    | none =>
      simp only [produceId, hashDecision, hr, ht]
      rfl
    | some creationTime =>
      cases hp : d.params with
      | none =>
        simp only [produceId, hashDecision, hr, ht, hp]
        rfl
      | some params => exact absurd ⟨hop, ht, hp⟩ (h ops creationTime params)
  · simp only [produceId, hashDecision, readOperations_panics (not_exists.1 hop)]
    rfl

/-- The id does not depend on the order of the operations exactly when any two of them can be compared in all three fields at
once, or are written alike in both orders. A decision with a pointer that is not set panics in every order. -/
theorem decision_id_order_iff (laws : StableSort.Laws Γ.sortStable) (d : AccessDecision)
    (hfree : ∀ ops creationTime params, d.Reads ops creationTime params →
      Sha256.CollisionFree (d.orderings Γ creationTime params ops)) :
    (∀ l, l.Perm d.operations → (produceId Γ { d with operations := l } : Outcome ε Bytes) = produceId Γ d) ↔
      ∀ ops creationTime params, d.Reads ops creationTime params →
        StableSort.Settled operationLess HashedOperation.word ops := by
  constructor
  · intro hsame ops creationTime params hr
    rw [← laws.same_word_iff comparison_operationLess resource_of_operationLess ops]
    intro ops' hp
    rw [← hr.produceId_eq_iff (ε := ε) (hfree ops creationTime params hr) hp]
    exact hsame _ (hr.operations ▸ hp.map _)
  · intro hs l hp
    by_cases hr : ∃ ops creationTime params, d.Reads ops creationTime params
    · obtain ⟨ops, creationTime, params, hr⟩ := hr
      obtain ⟨ops', hp', rfl⟩ := perm_map_toOperation.1 (hr.operations ▸ hp)
      rw [hr.produceId_eq_iff (hfree ops creationTime params hr) hp']
      exact same_word_of_settled laws (hs ops creationTime params hr) hp'
    · push Not at hr
      rw [produceId_panics hr, produceId_panics]
      rintro ops' creationTime params ⟨hop, ht, hpa⟩
      obtain ⟨ops, -, hd⟩ := perm_map_toOperation.1 (hp.symm.trans (List.Perm.of_eq hop))
      exact hr ops creationTime params ⟨hd, ht, hpa⟩

end Order

/-! ## Two requests -/

/-- The decision for a request with two operations. -/
def grantedBoth (first second : HashedOperation) : AccessDecision :=
  { granted with operations := [first, second].map HashedOperation.toOperation }

/-- Reading one file and writing another one, with a lesser name of each kind. -/
def readDraft : HashedOperation := ⟨str "draft", str "plan.txt", str "read"⟩

@[inherit_doc readDraft]
def writeFile : HashedOperation := ⟨str "file", str "readme.txt", str "write"⟩

def readPlan : HashedOperation := ⟨str "file", str "plan.txt", str "read"⟩

@[inherit_doc readPlan]
def readReadme : HashedOperation := ⟨str "file", str "readme.txt", str "read"⟩

theorem settled_readDraft : StableSort.Settled operationLess HashedOperation.word [readDraft, writeFile] := by
  show ∀ a ∈ _, ∀ b ∈ _, _
  decide +kernel

theorem orderings_grantedBoth (creationTime : Timestamp) (params : DecisionParams) : Sha256.CollisionFree
      ((grantedBoth readDraft writeFile).orderings plainLibraries creationTime params [readDraft, writeFile]) := by
  have hl : StableSort.Laws plainLibraries.sortStable := StableSort.laws_insertionSort
  intro a ha b hb _
  obtain ⟨ops, hop, rfl⟩ := List.mem_map.1 ha
  obtain ⟨ops', hop', rfl⟩ := List.mem_map.1 hb
  rw [preimage_eq_iff, same_word_of_settled hl settled_readDraft (List.mem_permutations.1 hop),
    same_word_of_settled hl settled_readDraft (List.mem_permutations.1 hop')]

/-- Reading one file and writing another, in either order. -/
theorem decision_id_order_either : (produceId plainLibraries (grantedBoth writeFile readDraft) : Outcome Bytes Bytes) =
      produceId plainLibraries (grantedBoth readDraft writeFile) := by
  have hl : StableSort.Laws plainLibraries.sortStable := StableSort.laws_insertionSort
  have hr : ∀ ops creationTime params, (grantedBoth readDraft writeFile).Reads ops creationTime params →
      ops = [readDraft, writeFile] := fun ops creationTime params h =>
    (List.map_injective_iff.2 toOperation_injective h.operations).symm
  refine (decision_id_order_iff hl (grantedBoth readDraft writeFile) ?_).2 ?_ _ (List.Perm.swap _ _ _)
  · intro ops creationTime params h
    rw [hr ops creationTime params h]
    exact orderings_grantedBoth creationTime params
  · intro ops creationTime params h
    rw [hr ops creationTime params h]
    exact settled_readDraft

/-- The id of a decision to read two files depends on which of them is named first. -/
theorem decision_id_order_false : [readReadme, readPlan].Perm [readPlan, readReadme] ∧
      (produceId plainLibraries (grantedBoth readReadme readPlan) : Outcome Bytes Bytes) ≠
        produceId plainLibraries (grantedBoth readPlan readReadme) := by
  refine ⟨List.Perm.swap _ _ _, ?_⟩
  decide +kernel

end Vera.Acp
