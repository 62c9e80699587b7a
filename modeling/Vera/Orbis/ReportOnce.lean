import Vera.Lib.Run
import Vera.Orbis.Report

/-!
# A report is counted once

The record of accepted reports over runs of submissions and block ends. An accepted report leaves two identifiers, its own and
that of its session, and an entry that says when both are dropped. Dropping goes by the clock, with `≤`; submission refuses
a report by the clock, with `<`. The two meet in the last second of a report, and an old commitment keeps no time at all once
it comes with a newer one.
-/

namespace Vera.Orbis

open Eff KVStore List Outcome

variable {Γ : Env}

/-! ## The identifiers on record -/

/-- What an accepted report puts on record. -/
inductive Ident where
  | report (id : Bytes)
  | session (id : Bytes)
  deriving Repr, DecidableEq

def State.has (s : State Γ) : Ident → Bool
  | .report id => s.hasAcceptedReport id
  | .session id => s.hasAcceptedReportSession id

/-- Whether an entry of the expiry index is for an identifier. -/
def Ident.owns : Ident → Bytes × Bytes → Prop
  | .report id, entry => entry.1.drop 8 = id
  | .session id, entry => entry.2 = id

def State.records (s : State Γ) : KVStore Bytes Unit × KVStore Bytes Unit × KVStore Bytes Bytes :=
  (s.acceptedReports, s.acceptedSessions, s.acceptedExpiry)

/-- The expiry index fits the record: what an entry is for is on record, and no two entries are for the same. -/
structure State.Indexed (s : State Γ) : Prop where
  has : ∀ entry ∈ s.acceptedExpiry.entries, ∀ i : Ident, i.owns entry → s.has i = true
  unique : ∀ e ∈ s.acceptedExpiry.entries, ∀ e' ∈ s.acceptedExpiry.entries, ∀ i : Ident, i.owns e → i.owns e' → e = e'

section Records

variable {s t : State Γ} {ctx : Ctx} {msg : MsgSubmitReport} {r : ReportEnvelope} {v : ValidatedSubmittedReport}
  {id : Bytes} {now : UInt64} {u : Unit} {ring : Ring} {l : List (Bytes × Bytes)}

theorem has_eq_of_records (h : t.records = s.records) (i : Ident) : t.has i = s.has i := by
  obtain ⟨hr, hrest⟩ := Prod.mk.inj h
  obtain ⟨hs, _⟩ := Prod.mk.inj hrest
  cases i with
  | report id =>
    show (t.acceptedReports.get id).isSome = (s.acceptedReports.get id).isSome
    rw [hr]
  | session id =>
    show (t.acceptedSessions.get id).isSome = (s.acceptedSessions.get id).isSome
    rw [hs]

theorem expiry_eq_of_records (h : t.records = s.records) : t.acceptedExpiry = s.acceptedExpiry :=
  (Prod.mk.inj (Prod.mk.inj h).2).2

theorem State.Indexed.of_records (h : s.Indexed) (hr : t.records = s.records) : t.Indexed where
  has := by
    rw [expiry_eq_of_records hr]
    intro entry hmem i how
    rw [has_eq_of_records hr]
    exact h.has entry hmem i how
  unique := by
    rw [expiry_eq_of_records hr]
    exact h.unique

/-! ### Dropping records -/

theorem has_deletePair (s : State Γ) (entry : Bytes × Bytes) (i : Ident) :
    (s.deletePair entry).has i = true ↔ s.has i = true ∧ ¬i.owns entry := by
  cases i with
  | report id => exact isSome_get_delete s.acceptedReports (entry.1.drop 8) id
  | session id => exact isSome_get_delete s.acceptedSessions entry.2 id

theorem mem_expiry_deletePair (s : State Γ) (entry e : Bytes × Bytes) :
    e ∈ (s.deletePair entry).acceptedExpiry.entries ↔ e ∈ s.acceptedExpiry.entries ∧ entry.1 ≠ e.1 := by
  show e ∈ s.acceptedExpiry.entries.filter _ ↔ _
  rw [mem_filter, decide_eq_true_eq]

/-- After a list of entries is dropped, an identifier is on record if it was and none of the entries is for it. -/
theorem has_deletePairs (l : List (Bytes × Bytes)) (s : State Γ) (i : Ident) :
    (l.foldl State.deletePair s).has i = true ↔ s.has i = true ∧ ∀ e ∈ l, ¬i.owns e := by
  induction l generalizing s with
  | nil => simp
  | cons entry rest ih =>
    rw [foldl_cons, ih, has_deletePair]
    simp [and_assoc]

theorem mem_expiry_deletePairs (l : List (Bytes × Bytes)) (s : State Γ) (e : Bytes × Bytes) :
    e ∈ (l.foldl State.deletePair s).acceptedExpiry.entries ↔ e ∈ s.acceptedExpiry.entries ∧ ∀ d ∈ l, d.1 ≠ e.1 := by
  induction l generalizing s with
  | nil => simp
  | cons entry rest ih =>
    rw [foldl_cons, ih, mem_expiry_deletePair]
    simp [and_assoc]

theorem mem_of_mem_expiredPairs {e : Bytes × Bytes} (h : e ∈ expiredPairs now l) : e ∈ l ∧ expiryOf e.1 ≤ now.toNat := by
  induction l with
  | nil => cases h
  | cons entry rest ih =>
    rw [expiredPairs] at h
    split at h
    · exact ⟨mem_cons_of_mem _ (ih h).1, (ih h).2⟩
    · split at h
      · cases h
      · rename_i hno
        rcases mem_cons.1 h with rfl | h
        · exact ⟨mem_cons_self, Nat.not_lt.1 hno⟩
        · exact ⟨mem_cons_of_mem _ (ih h).1, (ih h).2⟩

/-- Dropping entries of the index keeps it in order: an entry that stays is for identifiers that stay. -/
theorem State.Indexed.deletePairs (h : s.Indexed)
    (hl : ∀ e ∈ l, e ∈ s.acceptedExpiry.entries) : (l.foldl State.deletePair s).Indexed where
  has := by
    intro entry hmem i how
    obtain ⟨hold, hke⟩ := (mem_expiry_deletePairs l s entry).1 hmem
    refine (has_deletePairs l s i).2 ⟨h.has entry hold i how, fun e he howns => hke e he ?_⟩
    rw [h.unique e (hl e he) entry hold i howns how]
  unique := by
    intro e he e' he' i how how'
    exact h.unique e ((mem_expiry_deletePairs l s e).1 he).1 e' ((mem_expiry_deletePairs l s e').1 he').1 i how how'

/-! ### Adding records -/

theorem has_addPair (s : State Γ) (reportID sessionID : Bytes) (expiresAt : UInt64) (i : Ident) :
    (s.addPair reportID sessionID expiresAt).has i = true ↔
      s.has i = true ∨ i.owns (acceptedExpiryKey expiresAt reportID, sessionID) := by
  cases i with
  | report id =>
    have hd : (acceptedExpiryKey expiresAt reportID).drop 8 = reportID := drop_left' (Bytes.length_bigEndian _ _)
    show ((s.acceptedReports.set reportID ()).get id).isSome = true ↔ _ ∨ (acceptedExpiryKey expiresAt reportID).drop 8 = id
    rw [hd]
    exact isSome_get_set s.acceptedReports reportID id ()
  | session id => exact isSome_get_set s.acceptedSessions sessionID id ()

theorem State.Indexed.addPair (h : s.Indexed) {reportID sessionID : Bytes} {expiresAt : UInt64}
    (hnew : ∀ i : Ident, i.owns (acceptedExpiryKey expiresAt reportID, sessionID) → s.has i = false) :
    (s.addPair reportID sessionID expiresAt).Indexed where
  has := by
    intro entry hmem i how
    rcases (mem_entries_set _ _ _ entry).1 hmem with rfl | ⟨hold, _⟩
    · exact (has_addPair s reportID sessionID expiresAt i).2 (.inr how)
    · exact (has_addPair s reportID sessionID expiresAt i).2 (.inl (h.has entry hold i how))
  unique := by
    intro e he e' he' i how how'
    rcases (mem_entries_set _ _ _ e).1 he with rfl | ⟨hold, _⟩
    · rcases (mem_entries_set _ _ _ e').1 he' with rfl | ⟨hold', _⟩
      · rfl
      · exact absurd (h.has e' hold' i how') (by simp [hnew i how])
    · rcases (mem_entries_set _ _ _ e').1 he' with rfl | ⟨hold', _⟩
      · exact absurd (h.has e hold i how) (by simp [hnew i how'])
      · exact h.unique e hold e' hold' i how how'

/-! ## What an accepted report has passed -/

/-- What the checks of a submission leave of a report that passes them. -/
structure Validated (ctx : Ctx) (msg : MsgSubmitReport) (s : State Γ) (v : ValidatedSubmittedReport) : Prop where
  time : (v.blockUnixTime.toNat : Int) = ctx.unixTime
  observed : msg.report.observedAt.toNat ≤ v.blockUnixTime.toNat
  window : msg.report.expiresAt.toNat = msg.report.observedAt.toNat + 120
  unexpired : v.blockUnixTime.toNat ≤ msg.report.expiresAt.toNat
  fits : msg.report.fields.all Canonical.Field.fits = true
  reportID : v.reportID = sha256Hex (Canonical.encode msg.report.fields)
  claimed : msg.reportId = v.reportID
  newReport : s.has (.report v.reportID) = false
  newSession : s.has (.session v.sessionDedupeID) = false
  session : ∃ payload, decodeReportPayload Γ msg.report = .ok payload ∧
    reportSessionDedupeID msg.report payload = .ok v.sessionDedupeID
  ring : s.rings.get msg.report.ringId = some v.ring
  finalized : v.ring.ringPk ≠ []

theorem canonicalBytes_eq_ok {fields : List Canonical.Field} {message : Bytes} (h : canonicalBytes fields = .ok message) :
    fields.all Canonical.Field.fits = true ∧ message = Canonical.encode fields := by
  unfold canonicalBytes at h
  split at h
  · rename_i hnone
    refine ⟨all_eq_true.2 fun f hf => ?_, (Outcome.ok.inj h).symm⟩
    simpa using List.find?_eq_none.1 hnone f hf
  · cases h
  · cases h

theorem reportBlockUnixTime_eq_ok (h : reportBlockUnixTime ctx = .ok now) : (now.toNat : Int) = ctx.unixTime := by
  unfold reportBlockUnixTime at h
  split at h
  · cases h
  · rename_i hne
    have hlt := ctx.int64_time.2
    obtain rfl := Outcome.ok.inj h
    rw [UInt64.toNat_ofNat_of_lt' (by unfold UInt64.size; omega)]
    omega

theorem validateReportEnvelopeShape_eq_ok (h : validateReportEnvelopeShape Γ r now = .ok u) :
    r.observedAt.toNat ≤ now.toNat ∧ r.expiresAt.toNat = r.observedAt.toNat + 120 ∧ now.toNat ≤ r.expiresAt.toNat := by
  simp only [validateReportEnvelopeShape, bind_eq_ok] at h
  obtain ⟨_, _, _, hor, _, hp, _, hw, _, hop, _⟩ := h
  have hle := UInt64.le_iff_toNat_le.1 (require_eq_ok.1 hor)
  have hd := congrArg UInt64.toNat (require_eq_ok.1 hw)
  rw [UInt64.toNat_sub_of_le _ _ (require_eq_ok.1 hor)] at hd
  have ht : reportTTLSeconds.toNat = 120 := rfl
  exact ⟨UInt64.le_iff_toNat_le.1 (require_eq_ok.1 hp), by omega, UInt64.le_iff_toNat_le.1 (require_eq_ok.1 hop)⟩

theorem validateReportRing_eq_ok {payload : ReportPayload}
    (h : validateReportRing s r payload = .ok ring) : s.rings.get r.ringId = some ring ∧ ring.ringPk ≠ [] := by
  unfold validateReportRing at h
  split at h
  · cases h
  · rename_i stored hstored
    simp only [validateReportRing, bind_eq_ok, pure_eq_ok] at h
    obtain ⟨_, hf, _, _, _, _, _, _, _, _, _, _, rfl⟩ := h
    exact ⟨hstored, check_eq_ok.1 (ofExcept_eq_ok.1 hf)⟩

theorem validateSubmittedReport_eq_ok (h : validateSubmittedReport ctx msg s = .ok v) : Validated ctx msg s v := by
  simp only [validateSubmittedReport, bind_eq_ok, pure_eq_ok] at h
  obtain ⟨now, hno, _, hsh, _, _, message, hm, _, hcl, _, hnewR, payload, hp, ring, hr,
    sessionID, hs, _, hne, _, _, rfl⟩ := h
  obtain ⟨hf, rfl⟩ := canonicalBytes_eq_ok hm
  obtain ⟨hpa, hw, hop⟩ := validateReportEnvelopeShape_eq_ok hsh
  exact {
    time := reportBlockUnixTime_eq_ok hno
    observed := hpa
    window := hw
    unexpired := hop
    fits := hf
    reportID := rfl
    claimed := require_eq_ok.1 hcl
    newReport := require_eq_ok.1 hnewR
    newSession := require_eq_ok.1 hne
    session := ⟨payload, hp, hs⟩
    ring := (validateReportRing_eq_ok hr).1
    finalized := (validateReportRing_eq_ok hr).2 }

/-! ### The statements of a report -/

/-- The statements that a report of an invalid response carries. -/
def statementsOf (Γ : Env) (r : ReportEnvelope) : List Bytes :=
  if r.reportType = invalidCryptoResponseReportType then
    match (readEvidence Γ).run r.payload with
    | .ok evidence => evidence.statements
    | _ => []
  else []

/-- The session of a statement, as a report about it has it. -/
def InvalidCryptoResponseStatement.sessionID (st : InvalidCryptoResponseStatement) : Outcome Error Bytes := do
  let message ← canonicalBytes [.bytes (Bytes.str "orbis-mpc-fault-report-session"), .bytes st.chainID, .bytes st.ringID,
    .bytes invalidCryptoResponseReportType, .bytes st.originProtocol, .bytes st.responderNodeKey, .bytes st.requestID,
    .bytes st.attemptID]
  pure (sha256Hex message)

theorem sessionID_eq_of_session {st st' : InvalidCryptoResponseStatement} (h : st.session = st'.session) :
    st.sessionID = st'.sessionID := by
  simp only [InvalidCryptoResponseStatement.session, List.cons.injEq, and_true] at h
  obtain ⟨hch, hri, hor, hno, hr, ha⟩ := h
  unfold InvalidCryptoResponseStatement.sessionID
  rw [hch, hri, hor, hno, hr, ha]

/-- When a report about a statement alone would expire. -/
def InvalidCryptoResponseStatement.deadline (st : InvalidCryptoResponseStatement) : Nat := st.signedAt.toNat + 110

theorem checkStatementBinding_eq_ok {st : InvalidCryptoResponseStatement} {what role : String}
    (h : checkStatementBinding r st what role = .ok u) :
    st.chainID = r.chainId ∧ st.ringID = r.ringId ∧ st.requestID = r.sessionId ∧ st.responderNodeKey = r.accusedNodeKey ∧
      st.signedAt.toNat = r.observedAt.toNat + 10 := by
  simp only [checkStatementBinding, bind_eq_ok] at h
  obtain ⟨_, hch, _, hri, _, hr, _, hno, h⟩ := h
  obtain ⟨hg, ha⟩ := require_eq_ok.1 h
  have hle := UInt64.le_iff_toNat_le.1 hg
  have hs := congrArg UInt64.toNat ha
  rw [UInt64.toNat_sub_of_le _ _ hg] at hs
  have ht : reportObservedAtGraceSecs.toNat = 10 := rfl
  exact ⟨require_eq_ok.1 hch, (require_eq_ok.1 hri).1, require_eq_ok.1 hr, require_eq_ok.1 hno, by omega⟩

/-- A report of an invalid response that passes the checks: every statement it carries says something, is of the session of the
report, and would by itself have expired no later. -/
theorem Validated.says (h : Validated ctx msg s v) {statement : Bytes} (hmem : statement ∈ statementsOf Γ msg.report) :
    ∃ said, Says Γ statement said ∧ said.sessionID = .ok v.sessionDedupeID ∧ said.deadline ≤ msg.report.expiresAt.toNat := by
  obtain ⟨payload, hp, hse⟩ := h.session
  unfold statementsOf at hmem
  split at hmem
  · rename_i ht
    have hot : ¬msg.report.reportType = nodeOfflineReportType := by
      rw [ht]
      decide
    rw [decodeReportPayload, if_neg hot, if_pos ht] at hp
    simp only [bind_eq_ok, pure_eq_ok] at hp
    obtain ⟨st, hst, _, hb, rfl⟩ := hp
    obtain ⟨_, hb, _⟩ := bind_eq_ok.1 hb
    obtain ⟨hch, hri, hr, hno, hsi⟩ := checkStatementBinding_eq_ok hb
    obtain ⟨evidence, hev, hd⟩ := bind_eq_ok.1 hst
    rw [hev] at hmem
    obtain ⟨said, hsa, hsame, hs⟩ := Evidence.says hd hmem
    refine ⟨said, hsa, ?_, ?_⟩
    · rw [sessionID_eq_of_session hsame]
      unfold InvalidCryptoResponseStatement.sessionID
      rw [hch, hri, hr, hno, ← ht]
      exact hse
    · have hle := UInt64.le_iff_toNat_le.1 hs
      have hw := h.window
      unfold InvalidCryptoResponseStatement.deadline
      omega
  · cases hmem

/-! ### What a submission writes -/

/-- An automatic reshare: none is scheduled, or the accused node of a ring without a pending one is replaced. -/
theorem maybeScheduleAutoReshareForReport_ok {accused : Bytes} {demerits : UInt64} (h : (maybeScheduleAutoReshareForReport ring accused demerits).Succeeds s u t) :
    t = s ∨ ∃ replacement backups, ring.resharePending = false ∧
      selectAutoReshareReplacement s.nodeInfos ring [] ring.reporting.backupNodeKeys = some (replacement, backups) ∧
      validateRing Γ (ring.withReplacement accused replacement backups) = .ok () ∧
      t = { s with
        rings := s.rings.set ring.id (ring.withReplacement accused replacement backups).canonical
        events := s.events ++
          [.ringAutoReshareScheduled ring.id accused replacement ring.reporting.kickThreshold demerits] } := by
  unfold maybeScheduleAutoReshareForReport at h
  rw [read_bind_ok] at h
  split at h
  · exact .inl (pure_ok.1 h).2
  · split at h
    · exact .inl (pure_ok.1 h).2
    · rename_i hp
      split at h
      · exact .inl (pure_ok.1 h).2
      · split at h
        · exact .inl (pure_ok.1 h).2
        · rename_i replacement backups hs
          obtain ⟨_, hv, hw⟩ := lift_bind_ok.1 h
          obtain ⟨_, s₂, hse, hem⟩ := bind_ok.1 hw
          have ht := modify_ok.1 hem
          rw [modify_ok.1 hse] at ht
          exact .inr ⟨replacement, backups, Bool.not_eq_true _ ▸ hp, hs, ofExcept_eq_ok.1 hv, ht⟩

/-- The demerits of the accused node with those for a report. -/
def ValidatedSubmittedReport.charged (v : ValidatedSubmittedReport) (s : State Γ) (r : ReportEnvelope) (amount : UInt64) :
    NodeDemeritState :=
  NodeDemeritState.increment (s.demerits.get (nodeDemeritStoreKey r.ringId r.accusedNodeKey)) amount v.blockUnixTime
    v.ring.reporting.demeritConfig.resetIntervalSeconds

/-- The state with a report on record, for 120 seconds, and its demerits added. -/
def State.charge (s : State Γ) (v : ValidatedSubmittedReport) (r : ReportEnvelope) (amount : UInt64) : State Γ :=
  { s.addPair v.reportID v.sessionDedupeID (v.blockUnixTime + reportTTLSeconds) with
    demerits := s.demerits.set (nodeDemeritStoreKey r.ringId r.accusedNodeKey) (v.charged s r amount) }

/-- A submission that succeeds: the report is checked, put on record and charged, and then an automatic reshare is decided. -/
theorem submitReport_inv (h : (submitReport ctx msg).Succeeds s id t) : ∃ v amount s₁,
      validateSubmittedReport ctx msg s = .ok v ∧ demeritAmountForReportType Γ v.ring msg.report.reportType = .ok amount ∧
      (maybeScheduleAutoReshareForReport v.ring msg.report.accusedNodeKey (v.charged s msg.report amount).points).Succeeds
        (s.charge v msg.report amount) () s₁ ∧
      t = { s₁ with events := s₁.events ++ [.reportAccepted v.reportID msg.report.ringId msg.report.reportType
        msg.report.reporterNodeKey msg.report.accusedNodeKey] } := by
  obtain ⟨v, hv, h⟩ := query_bind_ok.1 h
  obtain ⟨amount, ha, h⟩ := lift_bind_ok.1 h
  simp only [submitReport, bind_ok] at h
  obtain ⟨_, s₁, had, demerits, s₂, hd, _, s₃, hr, _, s₄, hem, h⟩ := h
  unfold incrementNodeDemerits at hd
  rw [read_bind_ok, modify_bind_ok] at hd
  obtain ⟨hp, hs₂⟩ := pure_ok.1 hd
  rw [modify_ok.1 had] at hp hs₂
  rw [hp, hs₂] at hr
  refine ⟨v, amount, s₃, hv, ha, hr, ?_⟩
  rw [(pure_ok.1 h).2, modify_ok.1 hem]

theorem submitReport_ok (h : (submitReport ctx msg).Succeeds s id t) : ∃ v, Validated ctx msg s v ∧
      t.records = (s.addPair v.reportID v.sessionDedupeID (v.blockUnixTime + reportTTLSeconds)).records := by
  obtain ⟨v, amount, s₁, hv, _, hr, rfl⟩ := submitReport_inv h
  refine ⟨v, validateSubmittedReport_eq_ok hv, ?_⟩
  rcases maybeScheduleAutoReshareForReport_ok hr with rfl | ⟨_, _, _, _, _, rfl⟩
  · rfl
  · rfl

/-! ## Runs -/

/-- A chain: its state, the block it is in, and the time of the last block that has ended. The index of the record is in order
and time does not run back. -/
structure Node (Γ : Env) where
  state : State Γ
  ctx : Ctx
  lastEndBlock : Option Int
  indexed : state.Indexed
  ended : ∀ n, lastEndBlock = some n → n ≤ ctx.unixTime

/-- What happens to a chain. Other messages may replace what a submission reads, except for the record. -/
inductive Step (Γ : Env) where
  | submit (msg : MsgSubmitReport)
  | endBlock
  | newBlock (ctx : Ctx)
  | other (env : Γ.σ) (rings : KVStore Bytes Ring) (nodeInfos : KVStore Bytes NodeInfo)
      (demerits : KVStore Bytes NodeDemeritState)

theorem Validated.new (h : Validated ctx msg s v) (expiresAt : UInt64) (i : Ident)
    (how : i.owns (acceptedExpiryKey expiresAt v.reportID, v.sessionDedupeID)) : s.has i = false := by
  cases i with
  | report id =>
    have hd : (acceptedExpiryKey expiresAt v.reportID).drop 8 = v.reportID :=
      drop_left' (Bytes.length_bigEndian _ _)
    obtain rfl : v.reportID = id := hd.symm.trans how
    exact h.newReport
  | session id =>
    obtain rfl : v.sessionDedupeID = id := how
    exact h.newSession

theorem indexed_submit (h : s.Indexed) (ctx : Ctx) (msg : MsgSubmitReport) : ((submitReport ctx msg).commit s).Indexed := by
  rcases commit_cases (submitReport ctx msg) s with heq | ⟨_, hs⟩
  · rwa [heq]
  · obtain ⟨v, hv, hr⟩ := submitReport_ok hs
    exact (h.addPair fun i how => hv.new _ i how).of_records hr

theorem indexed_endBlock (h : s.Indexed) (ctx : Ctx) : ((endBlock ctx).commit s).Indexed :=
  h.deletePairs fun _ he => (mem_of_mem_expiredPairs he).1

end Records

/-- One step of a chain. A block with an earlier time is none. -/
def Node.step (node : Node Γ) : Step Γ → Node Γ
  | .submit msg => { node with
      state := (submitReport node.ctx msg).commit node.state
      indexed := indexed_submit node.indexed node.ctx msg }
  | .endBlock => { node with
      state := (Vera.Orbis.endBlock node.ctx).commit node.state
      lastEndBlock := some node.ctx.unixTime
      indexed := indexed_endBlock node.indexed node.ctx
      ended := fun _ hn => le_of_eq (Option.some.inj hn).symm }
  | .newBlock ctx =>
    if h : node.ctx.unixTime ≤ ctx.unixTime then
      { node with ctx := ctx, ended := fun n hn => le_trans (node.ended n hn) h }
    else node
  | .other env rings nodeInfos demerits => { node with
      state := { node.state with env := env, rings := rings, nodeInfos := nodeInfos, demerits := demerits }
      indexed := node.indexed.of_records rfl }

def Node.accepts (node : Node Γ) (msg : MsgSubmitReport) : Bool := (submitReport node.ctx msg node.state).1.isOk

/-- Whether a step accepts a report of an identifier. -/
def Node.acceptsReport (id : Bytes) (node : Node Γ) : Step Γ → Bool
  | .submit msg => node.accepts msg && decide (msg.reportId = id)
  | _ => false

/-- Whether a step accepts a report that carries a statement. -/
def Node.acceptsStatement (statement : Bytes) (node : Node Γ) : Step Γ → Bool
  | .submit msg => node.accepts msg && decide (statement ∈ statementsOf Γ msg.report)
  | _ => false

/-- A deadline is not over: the clock is before it, or in its second with no block ended in that second. -/
def Node.InTime (node : Node Γ) (deadline : Nat) : Prop :=
  node.ctx.unixTime < deadline ∨ node.ctx.unixTime = deadline ∧ node.lastEndBlock ≠ some node.ctx.unixTime

/-- A report that has not expired comes in time: its own deadline is not over, nor that of any statement it carries. -/
def Node.Timely (node : Node Γ) : Step Γ → Prop
  | .submit msg => node.ctx.unixTime ≤ msg.report.expiresAt.toNat →
      node.InTime msg.report.expiresAt.toNat ∧
        ∀ statement ∈ statementsOf Γ msg.report, ∀ said, Says Γ statement said → node.InTime said.deadline
  | _ => True

/-- An identifier is used up to a deadline: it is on record at least until then, or a block has ended then or later. -/
def Node.Retired (node : Node Γ) (i : Ident) (deadline : Nat) : Prop :=
  0 ≤ node.ctx.unixTime ∧
    ((node.state.has i = true ∧ ∀ e ∈ node.state.acceptedExpiry.entries, i.owns e → deadline ≤ expiryOf e.1) ∨
      ∃ n, node.lastEndBlock = some n ∧ (deadline : Int) ≤ n)

variable {node : Node Γ} {i : Ident} {deadline : Nat} {msg : MsgSubmitReport} {steps : List (Step Γ)}

theorem Node.Retired.not_new (h : node.Retired i deadline) (hin : node.InTime deadline) : node.state.has i = true := by
  rcases h.2 with ⟨hh, _⟩ | ⟨n, hl, hn⟩
  · exact hh
  · have hle := node.ended n hl
    rcases hin with hlt | ⟨heq, hne⟩
    · omega
    · exact absurd (hl.trans (congrArg some (by omega))) hne

/-! ### One step -/

theorem Node.Retired.submit (h : node.Retired i deadline) (msg : MsgSubmitReport) :
    (node.step (.submit msg)).Retired i deadline := by
  refine ⟨h.1, h.2.imp_left fun ⟨hh, hen⟩ => ?_⟩
  rcases commit_cases (submitReport node.ctx msg) node.state with heq | ⟨_, hsu⟩
  · have hs : (node.step (.submit msg)).state = node.state := heq
    rw [hs]
    exact ⟨hh, hen⟩
  · obtain ⟨v, hv, hr⟩ := submitReport_ok hsu
    have hexp : (node.step (.submit msg)).state.acceptedExpiry = _ := expiry_eq_of_records hr
    refine ⟨?_, fun e he how => ?_⟩
    · exact (has_eq_of_records hr i).trans ((has_addPair _ _ _ _ i).2 (.inl hh))
    · rw [hexp] at he
      rcases (mem_entries_set _ _ _ e).1 he with rfl | ⟨hold, _⟩
      · exact absurd hh (by simp [hv.new _ i how])
      · exact hen e hold how

theorem Node.Retired.endBlock (h : node.Retired i deadline) : (node.step .endBlock).Retired i deadline := by
  refine ⟨h.1, ?_⟩
  rcases h.2 with ⟨hh, hen⟩ | ⟨n, hl, hn⟩
  · let expired := expiredPairs (UInt64.ofInt node.ctx.unixTime) node.state.acceptedExpiry.entries
    by_cases hd : ∃ e ∈ expired, i.owns e
    · obtain ⟨e, he, how⟩ := hd
      obtain ⟨hmem, hexpired⟩ := mem_of_mem_expiredPairs he
      have hno := toNat_ofInt_of_nonneg h.1 node.ctx.int64_time.2
      have hde := hen e hmem how
      exact .inr ⟨node.ctx.unixTime, rfl, by omega⟩
    · refine .inl ⟨(has_deletePairs expired node.state i).2 ⟨hh, fun e he how => hd ⟨e, he, how⟩⟩, ?_⟩
      intro e he how
      exact hen e ((mem_expiry_deletePairs expired node.state e).1 he).1 how
  · exact .inr ⟨node.ctx.unixTime, rfl, le_trans hn (node.ended n hl)⟩

theorem Node.Retired.step (h : node.Retired i deadline) (a : Step Γ) : (node.step a).Retired i deadline := by
  cases a with
  | submit msg => exact h.submit msg
  | endBlock => exact h.endBlock
  | newBlock ctx =>
    by_cases hle : node.ctx.unixTime ≤ ctx.unixTime
    · simp only [Node.step, dif_pos hle]
      exact ⟨le_trans h.1 hle, h.2⟩
    · simp only [Node.step, dif_neg hle]
      exact h
  | other env rings nodeInfos demerits => exact ⟨h.1, h.2⟩

/-- What an accepted report is, and that it uses up its identifiers: with the entry that it leaves until its own deadline. -/
theorem Node.accepts_spec (h : node.accepts msg = true) : ∃ v, Validated node.ctx msg node.state v ∧
      ∀ i : Ident, i = .report v.reportID ∨ i = .session v.sessionDedupeID →
        ∀ deadline ≤ msg.report.expiresAt.toNat, (node.step (.submit msg)).Retired i deadline := by
  obtain ⟨id, hsu⟩ := succeeds_of_isOk h
  obtain ⟨v, hv, hr⟩ := submitReport_ok hsu
  have hs : (node.step (.submit msg)).state = (submitReport node.ctx msg node.state).2 := hsu.commit_eq
  have hti := hv.time
  refine ⟨v, hv, fun i hi deadline hd => ⟨by show 0 ≤ node.ctx.unixTime; omega, .inl ⟨?_, ?_⟩⟩⟩
  · have hdr : (acceptedExpiryKey (v.blockUnixTime + reportTTLSeconds) v.reportID).drop 8 = v.reportID :=
      drop_left' (Bytes.length_bigEndian _ _)
    rw [hs, has_eq_of_records hr, has_addPair]
    refine .inr ?_
    rcases hi with rfl | rfl
    · exact hdr
    · rfl
  · intro e he how
    rw [hs, expiry_eq_of_records hr] at he
    rcases (mem_entries_set _ _ _ e).1 he with rfl | ⟨hold, _⟩
    · have hexp : expiryOf (acceptedExpiryKey (v.blockUnixTime + reportTTLSeconds) v.reportID) =
          v.blockUnixTime.toNat + 120 := by
        have hlt := node.ctx.int64_time.2
        have ht : reportTTLSeconds.toNat = 120 := rfl
        unfold expiryOf acceptedExpiryKey
        rw [take_left' (Bytes.length_bigEndian _ _), Bytes.ofBigEndian_bigEndian, UInt64.toNat_add, ht]
        omega
      have hob := hv.observed
      have hw := hv.window
      rw [hexp]
      omega
    · have hh := node.indexed.has e hold i how
      have hnew : node.state.has i = false := by
        rcases hi with rfl | rfl
        · exact hv.newReport
        · exact hv.newSession
      exact absurd hh (by simp [hnew])

/-! ### Whole runs -/

/-- The reports that the steps of a run submit. -/
def submitted (steps : List (Step Γ)) : List ReportEnvelope :=
  steps.filterMap fun
    | .submit msg => some msg.report
    | _ => none

theorem mem_submitted (h : Step.submit msg ∈ steps) : msg.report ∈ submitted steps :=
  mem_filterMap.2 ⟨.submit msg, h, rfl⟩

theorem expiresAt_eq_of_id {reports : List ReportEnvelope}
    (hfr : Sha256.CollisionFree (reports.map fun r => Canonical.encode r.fields)) {r r' : ReportEnvelope} (hr : r ∈ reports)
    (hr' : r' ∈ reports) (hfi : r.fields.all Canonical.Field.fits = true)
    (hfi' : r'.fields.all Canonical.Field.fits = true)
    (h : sha256Hex (Canonical.encode r.fields) = sha256Hex (Canonical.encode r'.fields)) : r.expiresAt = r'.expiresAt := by
  have hb := hfr _ (mem_map_of_mem hr) _ (mem_map_of_mem hr') (Bytes.hex_inj h)
  have hki : r.fields.map Canonical.Field.kind = r'.fields.map Canonical.Field.kind := rfl
  have hf := Canonical.encode_inj hki hfi hfi' hb
  simp only [ReportEnvelope.fields, List.cons.injEq, Canonical.Field.u64.injEq] at hf
  obtain ⟨_, _, _, _, _, _, _, _, _, _, hexp, _⟩ := hf
  exact hexp

theorem report_count_le_one (hfr : Sha256.CollisionFree ((submitted steps).map fun r => Canonical.encode r.fields))
    (hst : Run.AllSteps Node.step Node.Timely node steps) (id : Bytes) :
    Run.count Node.step (Node.acceptsReport id) node steps ≤ 1 := by
  -- the identifier is used up until the deadline of a report that has it
  let Spent (node : Node Γ) : Prop := ∃ r ∈ submitted steps, r.fields.all Canonical.Field.fits = true ∧
    id = sha256Hex (Canonical.encode r.fields) ∧ node.Retired (.report id) r.expiresAt.toNat
  refine Run.count_le_one (fun node a hP hm => ?spend) (fun node a hP (hs : Spent node) => ?keep)
    (fun node a hP hs => ?none) (Run.allSteps_mem Node.step hst)
  case spend =>
    cases a with
    | submit msg =>
      obtain ⟨ha, hid⟩ := Bool.and_eq_true _ _ ▸ hm
      obtain ⟨v, hv, hre⟩ := Node.accepts_spec ha
      have hidv : id = v.reportID := (of_decide_eq_true hid).symm.trans hv.claimed
      refine ⟨msg.report, mem_submitted hP.2, hv.fits, hidv.trans hv.reportID, ?_⟩
      exact hre (.report id) (.inl (congrArg Ident.report hidv)) _ (le_refl _)
    | endBlock => cases hm
    | newBlock ctx => cases hm
    | other env rings nodeInfos demerits => cases hm
  case keep =>
    obtain ⟨r, hr, hf, hid, hre⟩ := hs
    exact ⟨r, hr, hf, hid, hre.step a⟩
  case none =>
    cases a with
    | submit msg =>
      obtain ⟨r, hr, hf, hid, hre⟩ := hs
      refine Bool.eq_false_iff.2 fun hm => ?_
      obtain ⟨ha, hid'⟩ := Bool.and_eq_true _ _ ▸ hm
      obtain ⟨v, hv, _⟩ := Node.accepts_spec ha
      have hidv : id = v.reportID := (of_decide_eq_true hid').symm.trans hv.claimed
      have hsame := expiresAt_eq_of_id hfr hr (mem_submitted hP.2) hf hv.fits (hid.symm.trans (hidv.trans hv.reportID))
      have hin := (hP.1 (by have := hv.time; have := hv.unexpired; omega)).1
      rw [← hsame] at hin
      exact absurd (hre.not_new hin) (by simp [hidv, hv.newReport])
    | endBlock => rfl
    | newBlock ctx => rfl
    | other env rings nodeInfos demerits => rfl

theorem statement_count_le_one (hst : Run.AllSteps Node.step Node.Timely node steps) (statement : Bytes) :
    Run.count Node.step (Node.acceptsStatement statement) node steps ≤ 1 := by
  -- the session of the statement is used up until the deadline that the statement itself sets
  let Spent (node : Node Γ) : Prop := ∃ said sessionID, Says Γ statement said ∧ said.sessionID = .ok sessionID ∧
    node.Retired (.session sessionID) said.deadline
  refine Run.count_le_one (fun node a hP hm => ?spend) (fun node a hP (hs : Spent node) => ?keep)
    (fun node a hP hs => ?none) hst
  case spend =>
    cases a with
    | submit msg =>
      obtain ⟨ha, hmem⟩ := Bool.and_eq_true _ _ ▸ hm
      obtain ⟨v, hv, hr⟩ := Node.accepts_spec ha
      obtain ⟨said, hsa, hse, hd⟩ := hv.says (of_decide_eq_true hmem)
      exact ⟨said, v.sessionDedupeID, hsa, hse, hr _ (.inr rfl) _ hd⟩
    | endBlock => cases hm
    | newBlock ctx => cases hm
    | other env rings nodeInfos demerits => cases hm
  case keep =>
    obtain ⟨said, sessionID, hsa, hse, hr⟩ := hs
    exact ⟨said, sessionID, hsa, hse, hr.step a⟩
  case none =>
    cases a with
    | submit msg =>
      obtain ⟨said, sessionID, hsa, hse, hr⟩ := hs
      refine Bool.eq_false_iff.2 fun hm => ?_
      obtain ⟨ha, hmem⟩ := Bool.and_eq_true _ _ ▸ hm
      obtain ⟨v, hv, _⟩ := Node.accepts_spec ha
      obtain ⟨said', hsa', hse', _⟩ := hv.says (of_decide_eq_true hmem)
      obtain rfl := hsa.unique hsa'
      obtain rfl := Outcome.ok.inj (hse.symm.trans hse')
      have hin := (hP (by have := hv.time; have := hv.unexpired; omega)).2 statement (of_decide_eq_true hmem) said hsa
      exact absurd (hr.not_new hin) (by simp [hv.newSession])
    | endBlock => rfl
    | newBlock ctx => rfl
    | other env rings nodeInfos demerits => rfl

/-- Every report is counted once in a run whose steps are timely: no report identifier is accepted twice, and no statement is
accepted twice under any reports. -/
theorem reports_counted_once (Γ : Env) (node : Node Γ) (steps : List (Step Γ))
    (hfree : Sha256.CollisionFree ((submitted steps).map fun r => Canonical.encode r.fields))
    (hsteps : Run.AllSteps Node.step Node.Timely node steps) :
    (∀ id, Run.count Node.step (Node.acceptsReport id) node steps ≤ 1) ∧
      ∀ statement, Run.count Node.step (Node.acceptsStatement statement) node steps ≤ 1 :=
  ⟨report_count_le_one hfree hsteps, statement_count_le_one hsteps⟩

/-! ## A report that is counted twice -/

open Bytes (str)

def hexValue (c : UInt8) : Option Nat :=
  if 48 ≤ c ∧ c ≤ 57 then some (c.toNat - 48)
  else if 97 ≤ c ∧ c ≤ 102 then some (c.toNat - 87)
  else if 65 ≤ c ∧ c ≤ 70 then some (c.toNat - 55)
  else none

def hexDecode : Bytes → Except Bytes Bytes
  | [] => .ok []
  | [_] => .error (str "encoding/hex: odd length hex string")
  | a :: b :: rest => do
    match hexValue a, hexValue b with
    | some x, some y => return UInt8.ofNat (16 * x + y) :: (← hexDecode rest)
    | _, _ => .error (str "encoding/hex: invalid byte")

/-- An environment in which strings are plain, every ring signs with the same bytes and every actor may update every ring. -/
def plainLibraries : Env where
  σ := Unit
  toLower := id
  trimSpace := id
  quote s := str "\"" ++ s ++ str "\""
  hexDecodeString := hexDecode
  blsVerify _ _ signature := signature = List.replicate 96 1
  jubjubIsIdentity _ := .ok false
  jubjubVerify _ _ signature := .ok (signature = List.replicate 64 1)
  didKeyIsEd25519 _ := .ok true
  getActorDID _ actor := .ok actor
  verifyRingUpdate _ _ _ _ := .ok true

def nodeKey (n : UInt8) : Bytes := Bytes.hex (List.replicate 33 n)

/-- A ring of three nodes with a key of FROST signatures. -/
def triad : Ring where
  id := str "ring-1"
  ringPk := Bytes.hex (List.replicate 32 9)
  peerNodeKeys := [nodeKey 1, nodeKey 2, nodeKey 3]
  threshold := 2
  newPeerNodeKeys := []
  newThreshold := none
  pssInterval := 3600
  blockNumberNonce := 0
  policyId := str "policy"
  upgradeInfo := ⟨1, none, none⟩
  reporting := ⟨⟨1, 86400, 1, 1⟩, [], 10⟩
  trustedAuthRelayDids := []
  allowTrustedAuthRelays := false

/-- The share of a signature that the second node signed at a time, and that is wrong. -/
def wrongShare (signedAt : UInt64) : Bytes :=
  Canonical.encode [.bytes (str "orbis-sign-response-v1"), .bytes (str "vera-1"), .bytes triad.id, .bytes triad.ringPk,
    .bytes (sha256Hex (Canonical.encode (triad.stateFields true))), .u64 1, .bytes (str "request"), .u64 signedAt,
    .bytes (nodeKey 2), .bytes (str "sign"), .byte 1, .byte 1, .u32 2, .bytes (str "message"), .bytes [], .byte 0, .byte 0,
    .bytes (str "share"), .bytes (str "frost")]

def shareReport (signedAt : UInt64) : ReportEnvelope where
  domain := str "orbis-mpc-fault-report"
  reportType := str "invalid_crypto_response"
  chainId := str "vera-1"
  ringId := triad.id
  ringPk := triad.ringPk
  ringStateSha256 := sha256Hex (Canonical.encode (triad.stateFields true))
  reporterNodeKey := nodeKey 1
  accusedNodeKey := nodeKey 2
  accusedPeerId := str "peer-2"
  observedAt := signedAt - 10
  expiresAt := signedAt + 110
  payload := Canonical.encode [.bytes (str "sign"), .bytes (wrongShare signedAt), .bytes (List.replicate 64 0)]
  sessionId := str "request"

def shareMsg (signedAt : UInt64) : MsgSubmitReport where
  report := shareReport signedAt
  reportId := sha256Hex (Canonical.encode (shareReport signedAt).fields)
  signatureScheme := str "jubjub_frost"
  signature := List.replicate 64 1

instance neZero_thousand : NeZero 1000 := ⟨by decide⟩

/-- A block of the chain, at a height and a time of a few seconds after the first report. -/
def blockAt (height : Fin 1000) (seconds : Fin 1000) : Ctx :=
  ⟨str "vera-1", height.val, by omega, 1700000000 + seconds.val, by omega⟩

def triadNode : Node plainLibraries where
  state := ⟨(), KVStore.empty.set triad.id triad, KVStore.empty.set (nodeKey 2) ⟨str "peer-2", [], [], []⟩, KVStore.empty,
    KVStore.empty, KVStore.empty, KVStore.empty, []⟩
  ctx := blockAt 1 0
  lastEndBlock := none
  indexed := ⟨fun _ h => (nomatch h), fun _ h => (nomatch h)⟩
  ended := fun _ h => nomatch h

/-- The report of the example, dated in the second of the first block. -/
def firstMsg : MsgSubmitReport := shareMsg 1700000010

/-- A report accepted in the second it is dated is dropped at the end of a block 120 seconds later, and accepted again by a
block of the same second. -/
def lastSecond : List (Step plainLibraries) :=
  [.submit firstMsg, .endBlock, .newBlock (blockAt 2 120), .endBlock, .newBlock (blockAt 3 120), .submit firstMsg]

theorem lastSecond_accepts : triadNode.accepts firstMsg = true ∧
    (((((triadNode.step (.submit firstMsg)).step .endBlock).step (.newBlock (blockAt 2 120))).step .endBlock).step
      (.newBlock (blockAt 3 120))).accepts firstMsg = true := by
  decide +kernel

theorem statementsOf_firstMsg : statementsOf plainLibraries firstMsg.report = [wrongShare 1700000010] := by decide +kernel

theorem lastSecond_count {mark : Node plainLibraries → Step plainLibraries → Bool}
    (hm : ∀ {node}, node.accepts firstMsg = true → mark node (.submit firstMsg) = true)
    (hen : ∀ node, mark node .endBlock = false) (hnew : ∀ node ctx, mark node (.newBlock ctx) = false) :
    Run.count Node.step mark triadNode lastSecond = 2 := by
  obtain ⟨hf, hs⟩ := lastSecond_accepts
  unfold lastSecond
  rw [Run.count_cons_of_mark (hm hf), Run.count_cons_of_not_mark (hen _), Run.count_cons_of_not_mark (hnew _ _),
    Run.count_cons_of_not_mark (hen _), Run.count_cons_of_not_mark (hnew _ _), Run.count_cons_of_mark (hm hs)]
  rfl

theorem collisionFree_of_const {reports : List ReportEnvelope} {r : ReportEnvelope} (h : ∀ r' ∈ reports, r' = r) :
    Sha256.CollisionFree (reports.map fun r => Canonical.encode r.fields) := by
  intro a ha b hb _
  obtain ⟨x, hx, rfl⟩ := mem_map.1 ha
  obtain ⟨y, hy, rfl⟩ := mem_map.1 hb
  rw [h x hx, h y hy]

/-- Without that condition a report is counted twice, and so is the statement it carries, in a run with block times that do not
run back. -/
theorem reports_counted_once_false : ∃ (Γ : Env) (node : Node Γ) (steps : List (Step Γ)),
    Sha256.CollisionFree ((submitted steps).map fun r => Canonical.encode r.fields) ∧
      (∃ id, Run.count Node.step (Node.acceptsReport id) node steps = 2) ∧
      ∃ statement, Run.count Node.step (Node.acceptsStatement statement) node steps = 2 := by
  refine ⟨plainLibraries, triadNode, lastSecond, ?_, ⟨firstMsg.reportId, ?_⟩, wrongShare 1700000010, ?_⟩
  · have hr : submitted lastSecond = [firstMsg.report, firstMsg.report] := rfl
    rw [hr]
    exact collisionFree_of_const (r := firstMsg.report) (by simp)
  · have hm : ∀ {node : Node plainLibraries}, node.accepts firstMsg = true →
        node.acceptsReport firstMsg.reportId (.submit firstMsg) = true :=
      fun h => Bool.and_eq_true_iff.2 ⟨h, decide_eq_true rfl⟩
    exact lastSecond_count hm (fun _ => rfl) (fun _ _ => rfl)
  · have hm : ∀ {node : Node plainLibraries}, node.accepts firstMsg = true →
        node.acceptsStatement (wrongShare 1700000010) (.submit firstMsg) = true :=
      fun h => Bool.and_eq_true_iff.2 ⟨h, decide_eq_true (statementsOf_firstMsg ▸ mem_singleton_self _)⟩
    exact lastSecond_count hm (fun _ => rfl) (fun _ _ => rfl)

def wrongShareSaid : InvalidCryptoResponseStatement where
  chainID := str "vera-1"
  ringID := triad.id
  ringPk := triad.ringPk
  ringStateSha256 := sha256Hex (Canonical.encode (triad.stateFields true))
  protocolVersion := 1
  requestID := str "request"
  signedAt := 1700000010
  responderNodeKey := nodeKey 2
  originProtocol := str "sign"
  accusedCommitteeScope := 1
  signingCommitteeScope := 1

theorem says_wrongShare : Says plainLibraries (wrongShare 1700000010) wrongShareSaid :=
  .inl ⟨.sign, by decide +kernel⟩

theorem timely_firstMsg {node : Node plainLibraries} (h : node.ctx.unixTime < 1700000120) : node.Timely (.submit firstMsg) := by
  intro _
  refine ⟨.inl h, fun statement hmem said hs => ?_⟩
  rw [statementsOf_firstMsg] at hmem
  obtain rfl := mem_singleton.1 hmem
  rw [hs.unique says_wrongShare]
  exact .inl h

/-- A report that is submitted again after a minute is counted once. -/
theorem reports_counted_once_minute : triadNode.accepts firstMsg = true ∧
    (∀ id, Run.count Node.step (Node.acceptsReport id) triadNode
      [.submit firstMsg, .endBlock, .newBlock (blockAt 2 60), .submit firstMsg] ≤ 1) ∧
    ∀ statement, Run.count Node.step (Node.acceptsStatement statement) triadNode
      [.submit firstMsg, .endBlock, .newBlock (blockAt 2 60), .submit firstMsg] ≤ 1 := by
  refine ⟨lastSecond_accepts.1, reports_counted_once plainLibraries triadNode _ ?_ ?_⟩
  · exact collisionFree_of_const (r := firstMsg.report) (by simp [submitted])
  · refine ⟨timely_firstMsg (by decide), trivial, trivial, timely_firstMsg ?_, trivial⟩
    show (blockAt 2 60).unixTime < 1700000120
    decide

end Vera.Orbis
