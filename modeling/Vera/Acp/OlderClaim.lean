import Vera.Acp.CommandWrites

/-!
# The older claim keeps the object

If no commitment is revealed for an object whose registration is recorded at the height of the commitment, an object changes
hands only to a strictly older claim: the recorded height falls with every amendment, so there are at most as many amendments
as the height counts blocks. A registration and a commitment of one block break this, and the object goes to the younger claim.
-/

namespace Vera.Acp.Registration

open Eff Outcome
open Bytes (str)
open Commitment (RegistrationProof)

variable {Γ : Env}

/-! ## What is asked of the engine -/

/-- The owner records of the engine, and what its calls do to them: registering, revealing and amending store the owner and the
metadata they are given and touch no other object, only an object without a record can be registered, and archiving changes
the archived flag only. What is marshaled is read back. -/
structure EngineLaws (Γ : Env) where
  record : Γ.σ → Bytes → Object → Option RelationshipRecord
  object : ∀ {e p o r}, record e p o = some r → r.object = o
  get : ∀ {e principal p o reg}, Γ.getObjectRegistration e principal p (some o) = .ok reg →
    (reg.isRegistered = true ↔ (record e p o).isSome = true) ∧ (reg.isRegistered = true → reg.record = record e p o)
  register : ∀ {e e' d p o blob r}, (Γ.registerObject (.did d) p o blob).Succeeds e r e' → ∃ o', o = some o' ∧
    record e p o' = none ∧ r.owner = d ∧ r.supplied = blob ∧
    ∀ q x, record e' q x = if q = p ∧ x = o' then some r else record e q x
  reveal : ∀ {e e' d p o blob ts r}, (Γ.revealRegistration (.did d) p (some o) blob ts).Succeeds e r e' →
    r.owner = d ∧ r.supplied = blob ∧ ∀ q x, record e' q x = if q = p ∧ x = o then some r else record e q x
  amend : ∀ {e e' p o actor ts blob r}, (Γ.amendRegistration .root p o actor ts blob).Succeeds e r e' →
    r.owner = actor.id ∧ r.supplied = blob ∧ ∀ q x, record e' q x = if q = p ∧ x = o then some r else record e q x
  archive : ∀ {e e' principal p o n}, (Γ.archiveObject principal p o).Succeeds e n e' → ∀ q x,
    (record e' q x).map (fun r => (r.owner, r.supplied)) = (record e q x).map fun r => (r.owner, r.supplied)
  unarchive : ∀ {e e' principal p o res}, (Γ.unarchiveObject principal p o).Succeeds e res e' → ∀ q x,
    (record e' q x).map (fun r => (r.owner, r.supplied)) = (record e q x).map fun r => (r.owner, r.supplied)
  unmarshal : ∀ {m blob}, Γ.marshal m = .ok blob → Γ.unmarshal blob = .ok m

def heightOf (Γ : Env) (blob : Bytes) : Option Nat :=
  match Γ.unmarshal blob with
  | .ok m => m.height
  | .error _ => none

section Laws

variable (L : EngineLaws Γ)

/-- Who owns an object, and the metadata of its registration. -/
def EngineLaws.registration (s : State Γ) (p : Bytes) (o : Object) : Option (Bytes × Bytes) :=
  (L.record s.engine p o).map fun r => (r.owner, r.supplied)

def EngineLaws.owner (s : State Γ) (p : Bytes) (o : Object) : Option Bytes := (L.registration s p o).map Prod.fst

def EngineLaws.recordedHeight (s : State Γ) (p : Bytes) (o : Object) : Option Nat :=
  (L.registration s p o).bind fun r => heightOf Γ r.2

/-- No commitment is revealed for an object whose registration is recorded at the height of the commitment. -/
def NoTie (s : State Γ) (input : CmdCtx × Cmd) : Prop :=
  ∀ claim ∈ input.2.claim s, ∀ h ∈ claim.1.metadata.height, L.recordedHeight s claim.1.policyId claim.2 ≠ some h

instance NoTie.decidable (s : State Γ) (input : CmdCtx × Cmd) : Decidable (NoTie L s input) :=
  inferInstanceAs (Decidable (∀ claim ∈ input.2.claim s, ∀ h ∈ claim.1.metadata.height,
    L.recordedHeight s claim.1.policyId claim.2 ≠ some h))

/-- A reveal that amends the registration of an object: it succeeds, and the object was registered. -/
def amends (p : Bytes) (o : Object) (s : State Γ) (input : CmdCtx × Cmd) : Bool :=
  (dispatch input.1 input.2 s).1.isOk && (L.record s.engine p o).isSome &&
    match input.2.claim s with
    | some (c, x) => decide (c.policyId = p ∧ x = o)
    | none => false

/-- If an object with an owner gets another one, the command is an amendment; and an amendment rests on a commitment whose height
is smaller than the recorded one, and records the height of the commitment. -/
structure MovesToOlder (s : State Γ) (input : CmdCtx × Cmd) : Prop where
  moves : ∀ p o d d', L.owner s p o = some d → L.owner (step s input) p o = some d' → d' ≠ d → amends L p o s input = true
  older : ∀ p o, amends L p o s input = true → ∃ c h h', input.2.claim s = some (c, o) ∧ c.policyId = p ∧
    c.metadata.height = some h ∧ L.recordedHeight s p o = some h' ∧ h < h' ∧ L.recordedHeight (step s input) p o = some h

/-- What a command that succeeds does to the registrations: it leaves them as they are, or it registers an object that was not
registered, or it amends one with a commitment that is not younger. -/
inductive Effect (s : State Γ) (cmd : Cmd) (t : State Γ) : Prop
  | kept (hclaim : cmd.claim s = none) (hsame : ∀ q x, L.registration t q x = L.registration s q x)
  | registered (p : Bytes) (o : Object) (d blob : Bytes) (k : Nat)
    (hclaim : ∀ c x, cmd.claim s = some (c, x) → c.policyId = p ∧ x = o) (hnone : L.registration s p o = none)
    (hheight : heightOf Γ blob = some k)
    (hstored : ∀ q x, L.registration t q x = if q = p ∧ x = o then some (d, blob) else L.registration s q x)
  | amended (c : RegistrationsCommitment) (o : Object) (d blob : Bytes) (old : Bytes × Bytes) (k k' : Nat)
    (hclaim : cmd.claim s = some (c, o)) (hc : c.metadata.height = some k)
    (hold : L.registration s c.policyId o = some old) (hk' : heightOf Γ old.2 = some k') (hle : k ≤ k')
    (hheight : heightOf Γ blob = some k)
    (hstored : ∀ q x, L.registration t q x = if q = c.policyId ∧ x = o then some (d, blob) else L.registration s q x)

end Laws

/-! ## What a command does to the registrations -/

section Calls

variable {s t : State Γ} {ctx : CmdCtx}

theorem buildRecordMetadata_height {actorDID msgCreator : Bytes} {m : RecordMetadata}
    (h : buildRecordMetadata ctx actorDID msgCreator = .ok m) : ∃ k, m.height = some k := by
  obtain ⟨ts, -, h⟩ := bind_eq_ok.1 h
  obtain rfl := pure_eq_ok.1 h
  exact ⟨ts.blockHeight.toNat, rfl⟩

variable {L : EngineLaws Γ}

theorem EngineLaws.heightOf_marshal (L : EngineLaws Γ) {m : RecordMetadata} {blob : Bytes} (h : Γ.marshal m = .ok blob) :
    heightOf Γ blob = m.height := by
  unfold heightOf
  rw [L.unmarshal h]

variable {o : Object} {r : RelationshipRecord} {cmd : Cmd}

theorem registration_of_stored {e : Γ.σ} {p : Bytes} (heq : t.engine = e)
    (h : ∀ q x, L.record e q x = if q = p ∧ x = o then some r else L.record s.engine q x) (q : Bytes) (x : Object) :
    L.registration t q x = if q = p ∧ x = o then some (r.owner, r.supplied) else L.registration s q x := by
  unfold EngineLaws.registration
  rw [heq, h q x]
  split
  · rfl
  · rfl

theorem EngineLaws.heightOf_withTime (L : EngineLaws Γ) {c : RegistrationsCommitment} {made : Timestamp} {blob : Bytes}
    (hmade : c.metadata.creationTs = some made)
    (h : buildACPSuppliedMetadataWithTime Γ ctx c.metadata.creationTs ctx.principalDID ctx.signer = .ok blob) :
    c.metadata.height = some made.blockHeight.toNat ∧ heightOf Γ blob = some made.blockHeight.toNat := by
  have hheight : c.metadata.height = some made.blockHeight.toNat := by
    rw [RecordMetadata.height, hmade]
    rfl
  refine ⟨hheight, ?_⟩
  rw [L.heightOf_marshal (ofExcept_eq_ok.1 h)]
  exact hheight

theorem effect_of_writes (h : Writes ctx s cmd t) : Effect L s cmd t := by
  cases h with
  | registered object blob r e hblob hcall =>
    obtain ⟨o, rfl, hnone, -, hs, hstored⟩ := L.register hcall
    obtain ⟨m, hm, hma⟩ := bind_eq_ok.1 hblob
    obtain ⟨k, hk⟩ := buildRecordMetadata_height hm
    refine .registered ctx.policyId o r.owner r.supplied k (fun c x hclaim => nomatch hclaim) ?_ ?_
      (registration_of_stored rfl hstored)
    · unfold EngineLaws.registration
      rw [hnone]
      rfl
    · rw [hs, L.heightOf_marshal (ofExcept_eq_ok.1 hma), hk]
  | archived object n e hcall => exact .kept rfl (L.archive hcall)
  | unarchived object res e hcall => exact .kept rfl (L.unarchive hcall)
  | committed | flagged => exact .kept rfl fun q x => rfl
  | revealed id proof c o e registration made blob r hclaim hget hnew hmade hblob hreveal =>
    obtain ⟨-, hs, hstored⟩ := L.reveal hreveal
    refine .registered c.policyId o r.owner r.supplied made.blockHeight.toNat ?_ ?_ ?_ (registration_of_stored rfl hstored)
    · intro c' x hc'
      rw [hclaim, Option.some.injEq, Prod.mk.injEq] at hc'
      obtain ⟨rfl, rfl⟩ := hc'
      exact ⟨rfl, rfl⟩
    · have hnone : L.record s.engine c.policyId o = none := by
        rw [← Option.not_isSome_iff_eq_none, ← (L.get hget).1, hnew]
        exact Bool.false_ne_true
      unfold EngineLaws.registration
      rw [hnone]
      rfl
    · rw [hs]
      exact (L.heightOf_withTime hmade hblob).2
  | amended id proof c o e registration record metadata made made' blob r event hclaim hget hregistered hrecord hmetadata hmade'
      hmade hnot hblob hamend =>
    have hrecord : L.record s.engine c.policyId o = some record := (L.get hget).2 hregistered ▸ hrecord
    rw [L.object hrecord] at hamend
    obtain ⟨-, hs, hstored⟩ := L.amend hamend
    rw [UInt64.lt_iff_toNat_lt, Nat.not_lt] at hnot
    have hold : heightOf Γ record.supplied = some made'.blockHeight.toNat := by
      unfold heightOf
      rw [hmetadata]
      simp [RecordMetadata.height, hmade']
    obtain ⟨hnew, hheight⟩ := L.heightOf_withTime hmade hblob
    refine .amended c o r.owner r.supplied (record.owner, record.supplied) _ _ hclaim hnew ?_ hold hnot (hs ▸ hheight)
      (registration_of_stored rfl hstored)
    unfold EngineLaws.registration
    rw [hrecord]
    rfl

end Calls

/-! ## Runs -/

section Runs

variable {L : EngineLaws Γ} {s : State Γ} {input : CmdCtx × Cmd}

theorem step_cases (L : EngineLaws Γ) (s : State Γ) (input : CmdCtx × Cmd) :
    (step s input = s ∧ ∀ p o, amends L p o s input = false) ∨
      (dispatch input.1 input.2 s).1.isOk = true ∧ Effect L s input.2 (step s input) := by
  cases hok : (dispatch input.1 input.2 s).1.isOk with
  | false =>
    left
    constructor
    · rcases commit_cases (dispatch input.1 input.2) s with hsame | ⟨res, hres⟩
      · exact hsame
      · rw [hres] at hok
        cases hok
    · intro p o
      simp [amends, hok]
  | true =>
    obtain ⟨res, hres⟩ := succeeds_of_isOk hok
    refine .inr ⟨rfl, ?_⟩
    have hef : Effect L s input.2 _ := effect_of_writes <| dispatch_writes hres
    rw [← hres.commit_eq] at hef
    exact hef

variable {p : Bytes} {o : Object}

theorem amends_eq_true : amends L p o s input = true ↔
    (dispatch input.1 input.2 s).1.isOk = true ∧ L.registration s p o ≠ none ∧
      ∃ c, input.2.claim s = some (c, o) ∧ c.policyId = p := by
  unfold amends EngineLaws.registration
  rw [Bool.and_eq_true, Bool.and_eq_true, Option.isSome_iff_ne_none, and_assoc]
  refine and_congr_right fun _ => and_congr (by simp) ?_
  cases hclaim : input.2.claim s with
  | none => simp
  | some cx =>
    obtain ⟨c, x⟩ := cx
    simp only [decide_eq_true_eq, Option.some.injEq, Prod.mk.injEq]
    constructor
    · rintro ⟨rfl, rfl⟩
      exact ⟨c, ⟨rfl, rfl⟩, rfl⟩
    · rintro ⟨c', ⟨rfl, rfl⟩, rfl⟩
      exact ⟨rfl, rfl⟩

theorem movesToOlder (hno : NoTie L s input) : MovesToOlder L s input := by
  rcases step_cases L s input with ⟨hsame, hnev⟩ | ⟨hok, hef⟩
  · refine ⟨fun p o d d' hd hd' hne => ?_, fun p o ha => ?_⟩
    · rw [hsame, hd] at hd'
      exact absurd (Option.some.inj hd').symm hne
    · rw [hnev p o] at ha
      cases ha
  · cases hef with
    | kept hclaim hsame =>
      refine ⟨fun p o d d' hd hd' hne => ?_, fun p o ha => ?_⟩
      · rw [EngineLaws.owner, hsame p o, ← EngineLaws.owner, hd] at hd'
        exact absurd (Option.some.inj hd').symm hne
      · obtain ⟨-, -, c, hc, -⟩ := amends_eq_true.1 ha
        rw [hclaim] at hc
        cases hc
    | registered p₀ o₀ d₀ blob k hclaim hnone hheight hstored =>
      refine ⟨fun p o d d' hd hd' hne => ?_, fun p o ha => ?_⟩
      · rw [EngineLaws.owner, hstored p o] at hd'
        split at hd'
        · rename_i heq
          rw [heq.1, heq.2, EngineLaws.owner, hnone] at hd
          cases hd
        · rw [← EngineLaws.owner, hd] at hd'
          exact absurd (Option.some.inj hd').symm hne
      · obtain ⟨-, hs, c, hc, rfl⟩ := amends_eq_true.1 ha
        obtain ⟨hp, rfl⟩ := hclaim c o hc
        rw [hp] at hs
        exact absurd hnone hs
    | amended c₀ o₀ d₀ blob old k k' hclaim hk hold hk' hle hheight hstored =>
      have hr : L.recordedHeight s c₀.policyId o₀ = some k' := by
        simp [EngineLaws.recordedHeight, hold, hk']
      have hlt : k < k' := by
        have hne := hno (c₀, o₀) hclaim k hk
        rw [hr, ne_eq, Option.some.injEq] at hne
        omega
      refine ⟨fun p o d d' hd hd' hne => ?_, fun p o ha => ?_⟩
      · rw [EngineLaws.owner, hstored p o] at hd'
        split at hd'
        · rename_i heq
          obtain ⟨rfl, rfl⟩ := heq
          exact amends_eq_true.2 ⟨hok, by rw [hold]; exact Option.some_ne_none old, c₀, hclaim, rfl⟩
        · rw [← EngineLaws.owner, hd] at hd'
          exact absurd (Option.some.inj hd').symm hne
      · obtain ⟨-, -, c, hc, rfl⟩ := amends_eq_true.1 ha
        rw [hclaim, Option.some.injEq, Prod.mk.injEq] at hc
        obtain ⟨rfl, rfl⟩ := hc
        refine ⟨c₀, k, k', hclaim, rfl, hk, hr, hlt, ?_⟩
        simp [EngineLaws.recordedHeight, hstored, hheight]

theorem recordedHeight_step {k : Nat} (hk : L.recordedHeight s p o = some k)
    (hnot : amends L p o s input = false) : L.recordedHeight (step s input) p o = some k := by
  rcases step_cases L s input with ⟨hsame, -⟩ | ⟨hok, hef⟩
  · rw [hsame, hk]
  · cases hef with
    | kept hclaim hsame => rw [EngineLaws.recordedHeight, hsame p o, ← EngineLaws.recordedHeight, hk]
    | registered p₀ o₀ d₀ blob k₀ hclaim hnone hheight hstored =>
      rw [EngineLaws.recordedHeight, hstored p o]
      split
      · rename_i heq
        rw [heq.1, heq.2, EngineLaws.recordedHeight, hnone] at hk
        cases hk
      · exact hk
    | amended c₀ o₀ d₀ blob old k₀ k' hclaim hc hold hk' hle hheight hstored =>
      rw [EngineLaws.recordedHeight, hstored p o]
      split
      · rename_i heq
        obtain ⟨rfl, rfl⟩ := heq
        have ha : amends L c₀.policyId o s input = true :=
          amends_eq_true.2 ⟨hok, by rw [hold]; exact Option.some_ne_none old, c₀, hclaim, rfl⟩
        rw [ha] at hnot
        cases hnot
      · exact hk

/-- There are at most as many amendments of an object as the recorded height counts blocks. -/
theorem count_amends_le {k : Nat} {inputs : List (CmdCtx × Cmd)}
    (h : Run.AllSteps step (NoTie L) s inputs) (hk : L.recordedHeight s p o = some k) :
    Run.count step (amends L p o) s inputs ≤ k := by
  induction inputs generalizing s k with
  | nil => exact Nat.zero_le k
  | cons input rest ih =>
    cases ha : amends L p o s input with
    | true =>
      obtain ⟨c, h₁, k', -, -, -, hold, hlt, hnew⟩ := (movesToOlder h.1).older p o ha
      obtain rfl := Option.some.inj (hold.symm.trans hk)
      have hrest := ih h.2 hnew
      rw [Run.count_cons_of_mark ha]
      omega
    | false =>
      rw [Run.count_cons_of_not_mark ha]
      exact ih h.2 (recordedHeight_step hk ha)

end Runs

/-- In every run without ties, each step moves objects to older claims only, and from any point on the number of amendments of
an object is at most its recorded height. -/
theorem ownership_moves_to_older (L : EngineLaws Γ) (s : State Γ) (inputs : List (CmdCtx × Cmd))
    (h : Run.AllSteps step (NoTie L) s inputs) :
    Run.AllSteps step (MovesToOlder L) s inputs ∧
      ∀ past future, inputs = past ++ future → ∀ p o k, L.recordedHeight (Run.run step s past) p o = some k →
        Run.count step (amends L p o) (Run.run step s past) future ≤ k := by
  constructor
  · induction inputs generalizing s with
    | nil => trivial
    | cons input rest ih => exact ⟨movesToOlder h.1, ih (step s input) h.2⟩
  · rintro past future rfl p o k hk
    exact count_amends_le ((Run.allSteps_append step).1 h).2 hk

/-! ## A local engine -/

namespace Local

def find (e : List RelationshipRecord) (p : Bytes) (o : Object) : Option RelationshipRecord :=
  e.find? fun r => decide (r.policyId = p ∧ r.object = o)

def put (r : RelationshipRecord) : Eff (List RelationshipRecord) Error RelationshipRecord := do
  Eff.modify fun e => r :: e
  pure r

def name : Principal → Bytes
  | .root => str "root"
  | .did d => d

def flag (archived : Bool) (principal : Principal) (p : Bytes) (o : Option Object) :
    Eff (List RelationshipRecord) Error RelationshipRecord := do
  let o ← Eff.lift (deref o)
  let r ← Eff.query fun e => Outcome.ofOption (.kind .notFound) (find e p o)
  Eff.require (r.owner = name principal) (.kind .unauthorized)
  put { r with archived := archived }

/-- Metadata in bytes: the height, the seconds, the hash, the length of the DID, the DID and the signer. -/
def encode (m : RecordMetadata) : Bytes :=
  match m.creationTs with
  | some ⟨some ts, height⟩ => Bytes.bigEndian 8 height.toNat ++ Bytes.bigEndian 8 ts.seconds.toNat ++ m.txHash ++
      [UInt8.ofNat m.ownerDid.length] ++ m.ownerDid ++ m.txSigner
  | _ => []

def number (b : Bytes) : Nat := b.foldl (fun n d => 256 * n + d.toNat) 0

def decode (b : Bytes) : RecordMetadata :=
  let rest := b.drop 48
  let len := (rest.headD 0).toNat
  { creationTs := some ⟨some ⟨number ((b.drop 8).take 8), 0⟩, UInt64.ofNat (number (b.take 8))⟩
    txHash := (b.drop 16).take 32
    ownerDid := (rest.drop 1).take len
    txSigner := (rest.drop 1).drop len }

/-- An engine with one policy that keeps its records in a list. -/
def engine : Env where
  σ := List RelationshipRecord
  newDIDPrincipal _ := .ok ()
  errPolicyNotFound p := .wrap (str "policy not found") (.kind .notFound) [(str "policy", p)]
  getPolicy _ _ _ := .ok true
  getObjectRegistration e _ p o :=
    match o with
    | some o => .ok ⟨(find e p o).isSome, find e p o⟩
    | none => .error (.kind .badInput)
  registerObject principal p o blob := do
    let o ← Eff.lift (deref o)
    let e ← Eff.read
    Eff.require ((find e p o).isNone = true) (.kind .operationForbidden)
    put ⟨p, o, name principal, false, name principal, blob⟩
  revealRegistration principal p o blob _ := do
    let o ← Eff.lift (deref o)
    put ⟨p, o, name principal, false, name principal, blob⟩
  amendRegistration _ p o actor _ blob := put ⟨p, o, actor.id, false, actor.id, blob⟩
  archiveObject principal p o := do
    let _ ← flag true principal p o
    pure 0
  unarchiveObject principal p o := do
    let r ← flag false principal p o
    pure (r, true)
  -- metadata that would not be read back is refused
  marshal m := if decode (encode m) = m then .ok (encode m) else .error (.kind .internal)
  unmarshal b := .ok (decode b)
  timestampFromProto
    | some ts => .ok (Time.ofUnix ts.seconds)
    | none => .error (str "timestamp: nil Timestamp")
  durationFromProto
    | some d => .ok (d.seconds * 1000000000 + d.nanos)
    | none => .error (str "duration: nil Duration")

theorem find_cons (r : RelationshipRecord) (e : List RelationshipRecord) (q : Bytes) (x : Object) :
    find (r :: e) q x = if q = r.policyId ∧ x = r.object then some r else find e q x := by
  unfold find
  rw [List.find?_cons]
  by_cases h : r.policyId = q ∧ r.object = x
  · rw [if_pos ⟨h.1.symm, h.2.symm⟩]
    simp [h]
  · rw [if_neg fun h' => h ⟨h'.1.symm, h'.2.symm⟩]
    simp [h]

variable {p : Bytes} {r : RelationshipRecord} {e' : List RelationshipRecord}

theorem find_eq_some {e : List RelationshipRecord} {o : Object}
    (h : find e p o = some r) : r.policyId = p ∧ r.object = o := by
  unfold find at h
  simpa using List.find?_some h

theorem put_ok {r' : RelationshipRecord} {e : List RelationshipRecord} (h : (put r).Succeeds e r' e') :
    r' = r ∧ e' = r :: e := by
  unfold put at h
  rw [modify_bind_ok, pure_ok] at h
  exact h

theorem flag_ok {archived : Bool} {principal : Principal} {o : Option Object}
    {e : List RelationshipRecord} (h : (flag archived principal p o).Succeeds e r e')
    (q : Bytes) (x : Object) :
    (find e' q x).map (fun r => (r.owner, r.supplied)) = (find e q x).map fun r => (r.owner, r.supplied) := by
  unfold flag at h
  rw [lift_bind_ok] at h
  obtain ⟨o, -, h⟩ := h
  rw [query_bind_ok] at h
  obtain ⟨r₀, hr₀, h⟩ := h
  rw [require_bind_ok] at h
  obtain ⟨-, rfl⟩ := put_ok h.2
  have hf := ofOption_eq_ok.1 hr₀
  obtain ⟨hp, ho⟩ := find_eq_some hf
  rw [find_cons]
  split
  · rename_i heq
    dsimp only at heq
    rw [heq.1, heq.2, hp, ho, hf]
    rfl
  · rfl

/-- The records of the local engine follow the laws. -/
def laws : EngineLaws engine where
  record := find
  object h := (find_eq_some h).2
  get := by
    intro e principal p o reg h
    obtain rfl : ObjectRegistration.mk (find e p o).isSome (find e p o) = reg := Except.ok.inj h
    exact ⟨Iff.rfl, fun _ => rfl⟩
  register := by
    intro e e' d p o blob r h
    obtain ⟨o', ho', hrest⟩ := lift_bind_ok.1 h
    obtain ⟨hnone, hput⟩ := require_bind_ok.1 (read_bind_ok.1 hrest)
    obtain ⟨rfl, rfl⟩ := put_ok hput
    exact ⟨o', deref_eq_ok.1 ho', Option.isNone_iff_eq_none.1 hnone, rfl, rfl, find_cons _ e⟩
  reveal := by
    intro e e' d p o blob ts r h
    obtain ⟨o', ho', hrest⟩ := lift_bind_ok.1 h
    obtain rfl := Option.some.inj (deref_eq_ok.1 ho')
    obtain ⟨rfl, rfl⟩ := put_ok hrest
    exact ⟨rfl, rfl, find_cons _ e⟩
  amend := by
    intro e e' p o actor ts blob r h
    obtain ⟨rfl, rfl⟩ := put_ok h
    exact ⟨rfl, rfl, find_cons _ e⟩
  archive := by
    intro e e' principal p o n h
    obtain ⟨r, e₁, hflag, h⟩ := bind_ok.1 h
    obtain ⟨-, rfl⟩ := pure_ok.1 h
    exact flag_ok hflag
  unarchive := by
    intro e e' principal p o res h
    obtain ⟨r, e₁, hflag, h⟩ := bind_ok.1 h
    obtain ⟨-, rfl⟩ := pure_ok.1 h
    exact flag_ok hflag
  unmarshal := by
    intro m blob h
    simp only [engine] at h ⊢
    split at h
    · rename_i hself
      obtain rfl := Except.ok.inj h
      rw [hself]
    · cases h

/-- The object, and the two actors who want it. -/
def doc : Object := ⟨str "file", str "doc"⟩
def alice : Bytes := str "did:key:alice"
def bob : Bytes := str "did:key:bob"

/-- A context at a height, in which commitments are valid for a hundred blocks. -/
def ctx (did : Bytes) (height : Nat) (h : height < 2 ^ 63) : CmdCtx :=
  ⟨⟨height, h, Time.ofUnix (1700000000 + height)⟩, str "tx", str "policy", did, str "signer", some (.blockCount 100)⟩

def register (height : Nat) (h : height < 2 ^ 63) : CmdCtx × Cmd := (ctx alice height h, .registerObject (some doc))

def commit (height : Nat) (h : height < 2 ^ 63) : CmdCtx × Cmd :=
  (ctx bob height h, .commitRegistrations (Commitment.produceLeafHash (str "policy") ⟨bob⟩ doc))

def reveal (height : Nat) (h : height < 2 ^ 63) : CmdCtx × Cmd :=
  (ctx bob height h, .revealRegistration 1 (some ⟨some doc, [], 1, 0⟩))

def start : State engine := State.init (Γ := engine) ([] : List RelationshipRecord)

end Local

/-- Bob commits in block 4, Alice registers in block 5, and the object goes to Bob. -/
theorem ownership_moves_to_older_commitFirst :
    let inputs := [Local.commit 4 (by decide), Local.register 5 (by decide), Local.reveal 6 (by decide)]
    Local.laws.owner (Run.run step Local.start inputs) (str "policy") Local.doc = some Local.bob ∧
      Run.AllSteps step (MovesToOlder Local.laws) Local.start inputs := by
  intro inputs
  exact ⟨by decide +kernel, (ownership_moves_to_older Local.laws Local.start inputs (by decide +kernel)).1⟩

/-- Alice registers the object in block 5 and Bob commits to it later in the same block: the object goes to Bob, and the
recorded height stays 5. -/
theorem ownership_moves_to_older_false :
    let s := Run.run step Local.start [Local.register 5 (by decide), Local.commit 5 (by decide)]
    Local.laws.owner s (str "policy") Local.doc = some Local.alice ∧
      Local.laws.owner (step s (Local.reveal 6 (by decide))) (str "policy") Local.doc = some Local.bob ∧
      Local.laws.recordedHeight s (str "policy") Local.doc = some 5 ∧
      Local.laws.recordedHeight (step s (Local.reveal 6 (by decide))) (str "policy") Local.doc = some 5 ∧
      ¬MovesToOlder Local.laws s (Local.reveal 6 (by decide)) := by
  intro s
  have hal : Local.laws.owner s (str "policy") Local.doc = some Local.alice := by decide +kernel
  have hbo : Local.laws.owner (step s (Local.reveal 6 (by decide))) (str "policy") Local.doc = some Local.bob := by
    decide +kernel
  have hb : Local.laws.recordedHeight s (str "policy") Local.doc = some 5 := by decide +kernel
  have ha : Local.laws.recordedHeight (step s (Local.reveal 6 (by decide))) (str "policy") Local.doc = some 5 := by
    decide +kernel
  refine ⟨hal, hbo, hb, ha, fun hm => ?_⟩
  have ham := hm.moves _ _ _ _ hal hbo (by decide)
  obtain ⟨c, h, h', -, -, -, hold, hlt, hnew⟩ := hm.older _ _ ham
  obtain rfl := Option.some.inj (hb.symm.trans hold)
  obtain rfl := Option.some.inj (ha.symm.trans hnew)
  exact absurd hlt (by decide)

end Vera.Acp.Registration
