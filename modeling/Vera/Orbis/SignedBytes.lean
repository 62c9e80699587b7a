import Vera.Orbis.Demerits

/-!
# Signed bytes

A report, the session it is about and the state of a ring are written field by field and hashed or signed. Strings and lists
stand behind their lengths, and optional fields behind a byte, so different values have different bytes.
-/

namespace Vera.Orbis

open Bytes (str)
open Canonical (Field Apart)

/-- The fields hashed to `reportSessionDedupeID`. -/
def sessionFields (r : ReportEnvelope) (payload : ReportPayload) : List Field :=
  [.bytes (str "orbis-mpc-fault-report-session"), .bytes r.chainId, .bytes r.ringId, .bytes r.reportType,
    .bytes payload.originProtocol, .bytes r.accusedNodeKey, .bytes r.sessionId, .bytes payload.attemptID]

theorem reportSessionDedupeID_eq (r : ReportEnvelope) (payload : ReportPayload) :
    reportSessionDedupeID r payload = canonicalBytes (sessionFields r payload) >>= fun message => pure (sha256Hex message) := rfl

theorem canonicalBytes_of_fits {fields : List Field} (h : fields.all Field.fits = true) :
    canonicalBytes fields = .ok (Canonical.encode fields) := by
  have hnone : fields.find? (fun f => !f.fits) = none := by
    simpa using h
  rw [canonicalBytes, hnone]

theorem encode_eq_of_canonicalBytes {fs gs : List Field} (hf : fs.all Field.fits = true) (hg : gs.all Field.fits = true)
    (h : canonicalBytes fs = canonicalBytes gs) : Canonical.encode fs = Canonical.encode gs := by
  rw [canonicalBytes_of_fits hf, canonicalBytes_of_fits hg] at h
  exact Outcome.ok.inj h

/-! ## The state of a ring -/

/-- Two rings agree on the fields of the current format; an empty policy or an empty committee to come is one that is absent. -/
structure Ring.Alike (ring ring' : Ring) : Prop where
  ringPk : ring.ringPk = ring'.ringPk
  peerNodeKeys : ring.peerNodeKeys = ring'.peerNodeKeys
  threshold : ring.threshold = ring'.threshold
  newPeerNodeKeys : ring.newPeerNodeKeys = ring'.newPeerNodeKeys
  newThreshold : ring.newThreshold = ring'.newThreshold
  pssInterval : ring.pssInterval = ring'.pssInterval
  blockNumberNonce : ring.blockNumberNonce = ring'.blockNumberNonce
  policyId : ring.policyId = ring'.policyId
  allowTrustedAuthRelays : ring.allowTrustedAuthRelays = ring'.allowTrustedAuthRelays
  trustedAuthRelayDids : ring.trustedAuthRelayDids = ring'.trustedAuthRelayDids
  upgradeInfo : ring.upgradeInfo = ring'.upgradeInfo
  reporting : ring.reporting = ring'.reporting

attribute [ext] UpgradeInfo DemeritConfig ReportingConfig

def present {α : Type} : List α → Option (List α)
  | [] => none
  | l => some l

theorem ite_eq_present {α β : Type} [DecidableEq α] (f : List α → β) (l : List α) :
    (if l = [] then none else some (f l)) = (present l).map f := by
  cases l <;> simp [present]

theorem present_inj {α : Type} {l l' : List α} (h : present l = present l') : l = l' := by
  cases l <;> cases l' <;> simp_all [present]

theorem strings_injective : Function.Injective Canonical.strings := fun _ _ => Canonical.strings_inj

theorem singleton_injective {α : Type} {f : α → Field} (hf : Function.Injective f) : Function.Injective fun a => [f a] :=
  fun _ _ h => hf (List.singleton_inj.1 h)

/-- The bytes of a ring are cut into its fields from the front. -/
theorem alike_of_stateFields {ring ring' : Ring} (hf : (ring.stateFields true).all Field.fits = true)
    (hg : (ring'.stateFields true).all Field.fits = true)
    (h : Canonical.encode (ring.stateFields true) = Canonical.encode (ring'.stateFields true)) : ring.Alike ring' := by
  simp only [Ring.stateFields, ReportingConfig.fields, if_true, ite_eq_present Canonical.strings,
    ite_eq_present fun p => [Field.bytes p], List.append_assoc, List.all_append, Bool.and_eq_true] at hf hg h
  obtain ⟨hf₁, hf₂, hf₃, hf₄, hf₅, hf₆, hf₇, hf₈, hf₉, hf₁₀, hf₁₁, hf₁₂, hf₁₃, hf₁₄⟩ := hf
  obtain ⟨hg₁, hg₂, hg₃, hg₄, hg₅, hg₆, hg₇, hg₈, hg₉, hg₁₀, hg₁₁, hg₁₂, hg₁₃, hg₁₄⟩ := hg
  obtain ⟨h₁, h⟩ := (Canonical.apart_of_kinds (by rfl) hf₁ hg₁).cut h
  obtain ⟨h₂, h⟩ := (Canonical.apart_strings hf₂ hg₂).cut h
  obtain ⟨h₃, h⟩ := (Canonical.apart_of_kinds (by rfl) hf₃ hg₃).cut h
  obtain ⟨h₄, h⟩ := (Canonical.apart_optional hf₄ hg₄ fun _ _ => Canonical.apart_strings).cut h
  obtain ⟨h₅, h⟩ := (Canonical.apart_optional hf₅ hg₅ fun _ _ => Canonical.apart_of_kinds (by rfl)).cut h
  obtain ⟨h₆, h⟩ := (Canonical.apart_of_kinds (by rfl) hf₆ hg₆).cut h
  obtain ⟨h₇, h⟩ := (Canonical.apart_optional hf₇ hg₇ fun _ _ => Canonical.apart_of_kinds (by rfl)).cut h
  obtain ⟨h₈, h⟩ := (Apart.cons (by rfl) (by rfl) (by rfl) (Canonical.apart_strings hf₈ hg₈)).cut h
  obtain ⟨h₉, h⟩ := (Canonical.apart_of_kinds (by rfl) hf₉ hg₉).cut h
  obtain ⟨h₁₀, h⟩ := (Canonical.apart_optional hf₁₀ hg₁₀ fun _ _ => Canonical.apart_of_kinds (by rfl)).cut h
  obtain ⟨h₁₁, h⟩ := (Canonical.apart_optional hf₁₁ hg₁₁ fun _ _ => Canonical.apart_of_kinds (by rfl)).cut h
  obtain ⟨h₁₂, h⟩ := (Canonical.apart_of_kinds (by rfl) hf₁₂ hg₁₂).cut h
  obtain ⟨h₁₃, h⟩ := (Canonical.apart_strings hf₁₃ hg₁₃).cut h
  have h₁₄ := Canonical.encode_inj (by rfl) hf₁₄ hg₁₄ h
  simp only [List.cons.injEq, Field.bytes.injEq, Field.u32.injEq, Field.u64.injEq, Field.byte.injEq, and_true] at *
  exact {
    ringPk := h₁
    peerNodeKeys := Canonical.strings_inj h₂
    threshold := h₃
    newPeerNodeKeys := present_inj (Canonical.optional_map_inj strings_injective h₄)
    newThreshold := Canonical.optional_map_inj (singleton_injective fun _ _ => Field.u32.inj) h₅
    pssInterval := h₆.1
    blockNumberNonce := h₆.2
    policyId := present_inj (Canonical.optional_map_inj (singleton_injective fun _ _ => Field.bytes.inj) h₇)
    allowTrustedAuthRelays := by
      have := h₈.1
      split at this <;> split at this <;> simp_all
    trustedAuthRelayDids := Canonical.strings_inj h₈.2
    upgradeInfo := UpgradeInfo.ext h₉ (Canonical.optional_map_inj (singleton_injective fun _ _ => Field.u64.inj) h₁₀)
      (Canonical.optional_map_inj (singleton_injective fun _ _ => Field.u64.inj) h₁₁)
    reporting := ReportingConfig.ext (DemeritConfig.ext h₁₂.1 h₁₂.2.1 h₁₂.2.2.1 h₁₂.2.2.2) (Canonical.strings_inj h₁₃) h₁₄ }

/-! ## Everything that is signed -/

/-- Reports with the same canonical bytes are the same, sessions with the same hash input agree on all that is hashed, and rings
with the same state agree on every field of the current format. -/
theorem signed_bytes_injective :
    (∀ r r' : ReportEnvelope, r.fields.all Field.fits = true → r'.fields.all Field.fits = true →
      reportEnvelopeCanonicalBytes r = reportEnvelopeCanonicalBytes r' → r = r') ∧
    (∀ (r r' : ReportEnvelope) (p p' : ReportPayload), (sessionFields r p).all Field.fits = true →
      (sessionFields r' p').all Field.fits = true →
      canonicalBytes (sessionFields r p) = canonicalBytes (sessionFields r' p') →
      r.chainId = r'.chainId ∧ r.ringId = r'.ringId ∧ r.reportType = r'.reportType ∧ p.originProtocol = p'.originProtocol ∧
        r.accusedNodeKey = r'.accusedNodeKey ∧ r.sessionId = r'.sessionId ∧ p.attemptID = p'.attemptID) ∧
    ∀ ring ring' : Ring, (ring.stateFields true).all Field.fits = true → (ring'.stateFields true).all Field.fits = true →
      canonicalBytes (ring.stateFields true) = canonicalBytes (ring'.stateFields true) → ring.Alike ring' := by
  refine ⟨fun r r' hf hg h => ?_, fun r r' p p' hf hg h => ?_, fun ring ring' hf hg h => ?_⟩
  · have hfi := Canonical.encode_inj (by rfl) hf hg (encode_eq_of_canonicalBytes hf hg h)
    cases r
    cases r'
    simpa [ReportEnvelope.fields] using hfi
  · have hfi := Canonical.encode_inj (by rfl) hf hg (encode_eq_of_canonicalBytes hf hg h)
    simpa [sessionFields] using hfi
  · exact alike_of_stateFields hf hg (encode_eq_of_canonicalBytes hf hg h)

/-- A threshold to come is told apart from none. -/
theorem signed_bytes_injective_threshold :
    canonicalBytes ((trioRing 5).stateFields true) ≠ canonicalBytes ({ trioRing 5 with newThreshold := some 2 }.stateFields true) :=
  fun h => nomatch (signed_bytes_injective.2.2 _ _ (by decide +kernel) (by decide +kernel) h).newThreshold

end Vera.Orbis
