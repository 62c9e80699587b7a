import Vera.Orbis.Documents
import Vera.Orbis.RecordsKept
import Vera.Orbis.RingKeyAgreed

/-!
# The demerits of nodes

An accepted report adds the demerits for its type to those of the accused node in the ring (`x/orbis/keeper/demerits.go`,
`x/orbis/keeper/store.go`). The points are counted in windows: they are 64-bit numbers, and the sum is one as well.
-/

namespace Vera.Orbis

open Eff KVStore List Outcome

/-- The points that count at a time: those of a window that is not over. -/
def NodeDemeritState.effective (current : Option NodeDemeritState) (now resetIntervalSeconds : UInt64) : UInt64 :=
  match current with
  | none => 0
  | some state => if nodeDemeritWindowExpired state.windowStartedAt now resetIntervalSeconds then 0 else state.points

/-- The points of a node in a ring that count at a time. -/
def State.getEffectiveNodeDemerits {Γ : Env} (s : State Γ) (ringID nodeKey : Bytes) (now resetIntervalSeconds : UInt64) : UInt64 :=
  NodeDemeritState.effective (s.demerits.get (nodeDemeritStoreKey ringID nodeKey)) now resetIntervalSeconds

theorem NodeDemeritState.points_increment (current : Option NodeDemeritState) (amount now resetIntervalSeconds : UInt64) :
    (increment current amount now resetIntervalSeconds).points = effective current now resetIntervalSeconds + amount := by
  cases current with
  | none => exact (UInt64.zero_add amount).symm
  | some state =>
    unfold increment effective
    dsimp only
    split
    · exact (UInt64.zero_add amount).symm
    · rfl

variable {amount : UInt64} {u : Unit} {msg : MsgSubmitReport} {v : ValidatedSubmittedReport}
  {current : Option NodeDemeritState} {creator : Bytes}

theorem demeritAmountForReportType_ne_zero {Γ : Env} {ring : Ring} {reportType : Bytes} (hv : ring.Valid Γ)
    (h : demeritAmountForReportType Γ ring reportType = .ok amount) : amount ≠ 0 := by
  have hco := (check_bind_eq_ok.1 hv.reporting).1
  unfold validateDemeritConfig at hco
  rw [check_bind_eq_ok, check_bind_eq_ok, check_bind_eq_ok] at hco
  obtain ⟨hof, hcr, hr, _⟩ := hco
  unfold demeritAmountForReportType at h
  split at h
  · obtain rfl := Outcome.ok.inj h
    exact check_eq_ok.1 hof
  · split at h
    · obtain rfl := Outcome.ok.inj h
      exact check_eq_ok.1 hcr
    · split at h
      · obtain rfl := Outcome.ok.inj h
        exact check_eq_ok.1 hr
      · cases h

/-! ## What a submission writes -/

theorem requireFields_eq_ok {fields : List (String × Bytes)} (h : requireFields fields = .ok u) :
    ∀ field ∈ fields, field.2 ≠ [] := by
  induction fields with
  | nil => exact fun _ hmem => nomatch hmem
  | cons first rest ih =>
    obtain ⟨_, hf, hrest⟩ := bind_eq_ok.1 h
    intro field hmem
    rcases mem_cons.1 hmem with rfl | hmem
    · exact require_eq_ok.1 hf
    · exact ih hrest field hmem

theorem validateReportEnvelopeShape_accused {Γ : Env} {r : ReportEnvelope} {now : UInt64}
    (h : validateReportEnvelopeShape Γ r now = .ok u) : r.accusedNodeKey ≠ [] := by
  simp only [validateReportEnvelopeShape, bind_eq_ok] at h
  obtain ⟨_, _, _, _, _, _, _, _, _, _, _, _, _, _, _, _, _, hf, _⟩ := h
  exact requireFields_eq_ok hf ("accused_node_key", r.accusedNodeKey) (by simp)

/-- What a submission that succeeds has checked and what it writes, besides the ring. -/
structure Submitted {Γ : Env} (ctx : Ctx) (msg : MsgSubmitReport) (s t : State Γ) (v : ValidatedSubmittedReport)
    (amount : UInt64) : Prop where
  validated : Validated ctx msg s v
  accused : msg.report.accusedNodeKey ≠ []
  charges : demeritAmountForReportType Γ v.ring msg.report.reportType = .ok amount
  records : t.records = (s.addPair v.reportID v.sessionDedupeID (v.blockUnixTime + reportTTLSeconds)).records
  demerits : t.demerits =
    s.demerits.set (nodeDemeritStoreKey msg.report.ringId msg.report.accusedNodeKey) (v.charged s msg.report amount)
  env : t.env = s.env
  rings : t.rings = s.rings ∨ ∃ next, t.rings = s.rings.set v.ring.id next ∧
    next.reporting.demeritConfig = v.ring.reporting.demeritConfig

theorem submitReport_submitted {Γ : Env} {ctx : Ctx} {s t : State Γ} {id : Bytes}
    (h : (submitReport ctx msg).Succeeds s id t) : ∃ v amount, Submitted ctx msg s t v amount := by
  obtain ⟨v, amount, s₁, hv, ham, hr, rfl⟩ := submitReport_inv h
  obtain ⟨_, _, hs⟩ := bind_eq_ok.1 hv
  obtain ⟨_, hs, _⟩ := bind_eq_ok.1 hs
  have ha := validateReportEnvelopeShape_accused hs
  rcases maybeScheduleAutoReshareForReport_ok hr with rfl | ⟨_, _, _, _, _, rfl⟩
  · exact ⟨v, amount, validateSubmittedReport_eq_ok hv, ha, ham, rfl, rfl, rfl, .inl rfl⟩
  · exact ⟨v, amount, validateSubmittedReport_eq_ok hv, ha, ham, rfl, rfl, rfl, .inr ⟨_, rfl, rfl⟩⟩

theorem ValidatedSubmittedReport.points_charged {Γ : Env} (v : ValidatedSubmittedReport) (s : State Γ) (msg : MsgSubmitReport)
    (amount : UInt64) : (v.charged s msg.report amount).points =
      s.getEffectiveNodeDemerits msg.report.ringId msg.report.accusedNodeKey v.blockUnixTime
        v.ring.reporting.demeritConfig.resetIntervalSeconds + amount :=
  NodeDemeritState.points_increment _ _ _ _

theorem Submitted.now {Γ : Env} {ctx : Ctx} {s t : State Γ}
    (h : Submitted ctx msg s t v amount) : v.blockUnixTime = UInt64.ofNat ctx.unixTime.toNat := by
  have ht := h.validated.time
  rw [← ht, Int.toNat_natCast, UInt64.ofNat_toNat]

/-! ## Windows -/

/-- The points for an accepted report, the time of the block and the length of a window in the ring at that time. -/
structure Charge where
  amount : UInt64
  now : UInt64
  resetIntervalSeconds : UInt64
  deriving Repr, DecidableEq

/-- The charges of the current window after one more: it joins them unless there are none or their window is over. -/
def extendWindow (window : List Charge) (charge : Charge) : List Charge :=
  match window with
  | [] => [charge]
  | first :: rest =>
    if nodeDemeritWindowExpired first.now charge.now charge.resetIntervalSeconds then [charge] else first :: rest ++ [charge]

/-- The charges since the current window started. -/
def windowOf (charges : List Charge) : List Charge := charges.foldl extendWindow []

/-- The sum of charges, as a number without bound. -/
def sumOf (window : List Charge) : Nat := (window.map (·.amount.toNat)).sum

/-- The sum of the charges of a window, or nothing if it is over. -/
def windowPoints (window : List Charge) (now resetIntervalSeconds : UInt64) : Nat :=
  match window with
  | [] => 0
  | first :: _ => if nodeDemeritWindowExpired first.now now resetIntervalSeconds then 0 else sumOf window

/-- The demerits that are stored are those of a window, as far as they fit. -/
def Tallies (current : Option NodeDemeritState) : List Charge → Prop
  | [] => current = none
  | first :: rest => ∃ state, current = some state ∧ state.windowStartedAt = first.now ∧
    state.points.toNat = sumOf (first :: rest) % 2 ^ 64

theorem sumOf_singleton (charge : Charge) : sumOf [charge] = charge.amount.toNat := by simp [sumOf]

theorem sumOf_append_singleton (window : List Charge) (charge : Charge) :
    sumOf (window ++ [charge]) = sumOf window + charge.amount.toNat := by
  simp [sumOf]

theorem windowOf_append_singleton (charges : List Charge) (charge : Charge) :
    windowOf (charges ++ [charge]) = extendWindow (windowOf charges) charge := by
  simp [windowOf]

variable {window : List Charge}

theorem Tallies.extend (h : Tallies current window) (charge : Charge) :
    Tallies (some (.increment current charge.amount charge.now charge.resetIntervalSeconds)) (extendWindow window charge) := by
  have hf : Tallies (some ⟨charge.amount, charge.now⟩) [charge] := by
    refine ⟨_, rfl, rfl, ?_⟩
    rw [sumOf_singleton, Nat.mod_eq_of_lt charge.amount.toNat_lt]
  cases window with
  | nil =>
    obtain rfl : current = none := h
    exact hf
  | cons first rest =>
    obtain ⟨state, rfl, hs, hp⟩ := h
    unfold extendWindow NodeDemeritState.increment
    dsimp only
    rw [hs]
    split
    · exact hf
    · refine ⟨_, rfl, rfl, ?_⟩
      show (state.points + charge.amount).toNat = sumOf (first :: rest ++ [charge]) % 2 ^ 64
      rw [sumOf_append_singleton, UInt64.toNat_add, hp, Nat.mod_add_mod]

theorem Tallies.effective (h : Tallies current window)
    (now resetIntervalSeconds : UInt64) : (NodeDemeritState.effective current now resetIntervalSeconds).toNat =
      windowPoints window now resetIntervalSeconds % 2 ^ 64 := by
  cases window with
  | nil =>
    obtain rfl : current = none := h
    rfl
  | cons first rest =>
    obtain ⟨state, rfl, hs, hp⟩ := h
    unfold NodeDemeritState.effective windowPoints
    dsimp only
    rw [hs]
    split
    · rfl
    · exact hp

theorem windowPoints_le (window : List Charge) (now resetIntervalSeconds : UInt64) :
    windowPoints window now resetIntervalSeconds ≤ sumOf window := by
  unfold windowPoints
  split
  · exact Nat.zero_le _
  · split
    · exact Nat.zero_le _
    · exact Nat.le_refl _

/-- A charge starts a window, and then nothing counted before it, or it is added to what counted. -/
theorem extendWindow_cases (window : List Charge) (charge : Charge) :
    (windowPoints window charge.now charge.resetIntervalSeconds = 0 ∧ extendWindow window charge = [charge]) ∨
    (windowPoints window charge.now charge.resetIntervalSeconds = sumOf window ∧
      sumOf (extendWindow window charge) = sumOf window + charge.amount.toNat ∧
      windowPoints (extendWindow window charge) charge.now charge.resetIntervalSeconds =
        sumOf window + charge.amount.toNat) := by
  cases window with
  | nil => exact .inl ⟨rfl, rfl⟩
  | cons first rest =>
    unfold extendWindow windowPoints
    dsimp only
    split
    · exact .inl ⟨rfl, rfl⟩
    · rename_i hop
      have hs := sumOf_append_singleton (first :: rest) charge
      refine .inr ⟨rfl, hs, ?_⟩
      rw [cons_append]
      dsimp only
      rw [if_neg hop]
      exact hs

/-! ## Ledgers -/

variable {Γ : RingEnv}

def Ledger.now (ledger : Ledger Γ) : UInt64 := UInt64.ofNat ledger.ctx.unixTime.toNat

def Ledger.chargeFor (ledger : Ledger Γ) (r : ReportEnvelope) : Option Charge :=
  match ledger.state.rings.get r.ringId with
  | none => none
  | some ring =>
    match demeritAmountForReportType Γ.toEnv ring r.reportType with
    | .ok amount => some ⟨amount, ledger.now, ring.reporting.demeritConfig.resetIntervalSeconds⟩
    | _ => none

/-- The points of the accused node that count, with those for a report added, as a number without bound. -/
def Ledger.sumWith (ledger : Ledger Γ) (r : ReportEnvelope) : Option Nat :=
  (ledger.chargeFor r).map fun charge => (ledger.state.getEffectiveNodeDemerits r.ringId r.accusedNodeKey charge.now
    charge.resetIntervalSeconds).toNat + charge.amount.toNat

def Ledger.charge (ledger : Ledger Γ) (ringID nodeKey : Bytes) : Turn Γ → Option Charge
  | .message (.submitReport creator msg) =>
    if ledger.accepts (.submitReport creator msg) = true ∧ msg.report.ringId = ringID ∧ msg.report.accusedNodeKey = nodeKey then
      ledger.chargeFor msg.report
    else none
  | _ => none

variable {ledger : Ledger Γ} {t : State Γ.toEnv}

theorem Submitted.chargeFor_eq (h : Submitted ledger.ctx msg ledger.state t v amount) : ledger.chargeFor msg.report =
      some ⟨amount, v.blockUnixTime, v.ring.reporting.demeritConfig.resetIntervalSeconds⟩ := by
  unfold Ledger.chargeFor
  rw [h.validated.ring]
  dsimp only
  rw [h.charges, h.now]
  rfl

theorem Submitted.sumWith_eq (h : Submitted ledger.ctx msg ledger.state t v amount) : ledger.sumWith msg.report =
      some ((ledger.state.getEffectiveNodeDemerits msg.report.ringId msg.report.accusedNodeKey v.blockUnixTime
        v.ring.reporting.demeritConfig.resetIntervalSeconds).toNat + amount.toNat) := by
  unfold Ledger.sumWith
  rw [h.chargeFor_eq]
  rfl

/-! ### What turns leave alone -/

theorem length_sha256Hex (b : Bytes) : (sha256Hex b).length = 64 := by
  unfold sha256Hex
  rw [Bytes.length_hex, Sha256.length_sum256]

theorem sha256Hex_ne_nil (b : Bytes) : sha256Hex b ≠ [] := by
  intro h
  have hlength := length_sha256Hex b
  rw [h] at hlength
  cases hlength

theorem RingEffect.ids_short {Γ : RingEnv} {s t : State Γ.toEnv} {msg : Message} (hs : s.Keyed)
    (hids : s.rings.All fun id _ => id.length < 2 ^ 32) (h : RingEffect s t msg) :
    t.rings.All fun id _ => id.length < 2 ^ 32 := by
  have hsh : ∀ key ring, s.rings.get key = some ring → ring.id.length < 2 ^ 32 := by
    intro key ring hget
    rw [hs key ring hget]
    exact hids key ring hget
  cases h with
  | @created msg creatorDID defaults _ _ _ hr _ =>
    rw [hr]
    refine hids.set ?_
    rw [show msg.ringID.length = 64 from length_sha256Hex _]
    decide
  | disputed ring _ _ hr _ =>
    rw [hr]
    exact hids.delete _
  | confirmed ring _ hco _ _ hr _ =>
    rw [hr]
    exact hids.set (hsh _ ring hco.stored)
  | finalized ring _ hco _ _ _ hr _ =>
    rw [hr]
    exact hids.set (hsh _ ring hco.stored)
  | cancelled ring _ _ hr _ =>
    rw [hr]
    exact hids.delete _
  | revised _ hre =>
    rcases hre.1 with hr | ⟨id, ring, next, hget, hid, _, hr⟩
    · rwa [hr]
    · rw [hr]
      refine hids.set ?_
      rw [hid]
      exact hsh id ring hget
  | onNodes _ hw => rwa [hw.1]

theorem Ledger.ids_short_step (hs : ledger.state.Keyed)
    (hids : ledger.state.rings.All fun id _ => id.length < 2 ^ 32) (turn : Turn Γ) :
    (ledger.step turn).state.rings.All fun id _ => id.length < 2 ^ 32 := by
  rcases ledger.step_cases turn with ⟨hr, _, _⟩ | ⟨msg, _, _, hef⟩
  · rwa [hr]
  · exact hef.ids_short hs hids

theorem nodeDemeritStoreKey_inj {ringID ringID' nodeKey nodeKey' : Bytes} (hlt : ringID.length < 2 ^ 32)
    (hlt' : ringID'.length < 2 ^ 32) (h : nodeDemeritStoreKey ringID nodeKey = nodeDemeritStoreKey ringID' nodeKey') :
    ringID = ringID' ∧ nodeKey = nodeKey' := by
  unfold nodeDemeritStoreKey at h
  rw [append_assoc, append_assoc] at h
  obtain ⟨hcou, hrest⟩ := append_inj h (by simp)
  have hlength : ringID.length = ringID'.length := by
    have hco := congrArg Bytes.ofBigEndian hcou
    rw [Bytes.ofBigEndian_bigEndian, Bytes.ofBigEndian_bigEndian] at hco
    omega
  exact append_inj hrest hlength

theorem Ledger.step_demerits (ledger : Ledger Γ) (turn : Turn Γ) :
    ((∀ ringID nodeKey, ledger.charge ringID nodeKey turn = none) ∧ (∀ creator msg, turn = .message (.submitReport creator msg) →
        ledger.accepts (.submitReport creator msg) = false) ∧
      (ledger.step turn).state.demerits = ledger.state.demerits) ∨
    ∃ creator msg v amount, turn = .message (.submitReport creator msg) ∧
      ledger.accepts (.submitReport creator msg) = true ∧
      Submitted ledger.ctx msg ledger.state (ledger.step turn).state v amount := by
  cases turn with
  | message msg =>
    cases ha : ledger.accepts msg with
    | false =>
      have hst : (ledger.step (.message msg)).state = ledger.state := by
        rcases commit_cases (msg.deliver ledger.ctx) ledger.state with hsame | ⟨_, hsu⟩
        · exact hsame
        · unfold Ledger.accepts at ha
          rw [hsu] at ha
          cases ha
      refine .inl ⟨?_, ?_, by rw [hst]⟩
      · intro ringID nodeKey
        cases msg <;> simp [Ledger.charge, ha]
      · rintro creator report ⟨⟩
        exact ha
    | true =>
      have hsu := ok_unit_of_isOk ha
      have hst : (ledger.step (.message msg)).state = (msg.deliver ledger.ctx ledger.state).2 := hsu.commit_eq
      rw [← hst] at hsu
      cases hs : msg.submits with
      | false =>
        have hr : (msg.deliver ledger.ctx : M Γ.toEnv Unit).Respects (KeepsRecords fun _ => ()) :=
          Message.keepsRecords (fun _ _ _ _ _ _ => rfl) hs ledger.ctx
        have hke := hr ledger.state
        rw [← hst] at hke
        refine .inl ⟨?_, ?_, hke.demerits⟩
        · intro ringID nodeKey
          cases msg with
          | submitReport creator report => cases hs
          | _ => rfl
        · rintro creator report ⟨⟩
          cases hs
      | true =>
        cases msg with
        | submitReport creator report =>
          obtain ⟨_, _, hh⟩ := pass_bind_ok.1 hsu
          obtain ⟨id, s₁, hsubm, hen⟩ := bind_ok.1 hh
          rw [← (pure_ok.1 hen).2] at hsubm
          obtain ⟨v, amount, hsub⟩ := submitReport_submitted hsubm
          exact .inr ⟨creator, report, v, amount, rfl, ha, hsub⟩
        | _ => cases hs
  | endBlock => exact .inl ⟨fun _ _ => rfl, fun _ _ h => (nomatch h), (deletePairs_keeps _ _).2.2.1⟩
  | newBlock ctx => exact .inl ⟨fun _ _ => rfl, fun _ _ h => (nomatch h), rfl⟩
  | other env => exact .inl ⟨fun _ _ => rfl, fun _ _ h => (nomatch h), rfl⟩

/-! ## Charges along a run -/

/-- A ledger with the charges of every node of every ring on record. -/
structure Audit (Γ : RingEnv) where
  ledger : Ledger Γ
  charges : Bytes → Bytes → List Charge

def Audit.step (audit : Audit Γ) (turn : Turn Γ) : Audit Γ where
  ledger := audit.ledger.step turn
  charges ringID nodeKey := audit.charges ringID nodeKey ++ (audit.ledger.charge ringID nodeKey turn).toList

/-- The points of every node of a ring that count are the sum of the charges since its window started, or none if that is
over. -/
def Audit.AddsUp (audit : Audit Γ) : Prop := ∀ ringID nodeKey ring, audit.ledger.state.rings.get ringID = some ring →
  (audit.ledger.state.getEffectiveNodeDemerits ringID nodeKey audit.ledger.now
    ring.reporting.demeritConfig.resetIntervalSeconds).toNat =
      windowPoints (windowOf (audit.charges ringID nodeKey)) audit.ledger.now ring.reporting.demeritConfig.resetIntervalSeconds

/-- A node that is charged has no fewer points after it. -/
def Audit.NeverDrops (audit : Audit Γ) (turn : Turn Γ) : Prop := ∀ ringID nodeKey charge,
  audit.ledger.charge ringID nodeKey turn = some charge →
    audit.ledger.state.getEffectiveNodeDemerits ringID nodeKey charge.now charge.resetIntervalSeconds ≤
      (audit.ledger.step turn).state.getEffectiveNodeDemerits ringID nodeKey charge.now charge.resetIntervalSeconds

/-- The points of the accused node of an accepted report and those for the report fit in 64 bits together. -/
def Ledger.NoOverflow (ledger : Ledger Γ) : Turn Γ → Prop
  | .message (.submitReport creator msg) =>
    ledger.accepts (.submitReport creator msg) = true → ∀ n, ledger.sumWith msg.report = some n → n < 2 ^ 64
  | _ => True

theorem Ledger.noOverflow_of_sumWith {n : Nat} (hs : ledger.sumWith msg.report = some n) (hn : n < 2 ^ 64) :
    ledger.NoOverflow (.message (.submitReport creator msg)) := by
  intro _ m hm
  rwa [← Option.some.inj (hs.symm.trans hm)]

/-- What every run keeps: the demerits are the sums of the charges as far as they fit. -/
structure Audit.Kept (audit : Audit Γ) : Prop where
  keyed : audit.ledger.state.Keyed
  ids : audit.ledger.state.rings.All fun id _ => id.length < 2 ^ 32
  tallies : ∀ ringID nodeKey, ringID.length < 2 ^ 32 →
    Tallies (audit.ledger.state.demerits.get (nodeDemeritStoreKey ringID nodeKey)) (windowOf (audit.charges ringID nodeKey))

def Audit.Fits (audit : Audit Γ) : Prop := ∀ ringID nodeKey, ringID.length < 2 ^ 32 →
  sumOf (windowOf (audit.charges ringID nodeKey)) < 2 ^ 64

theorem Submitted.charge_eq (h : Submitted ledger.ctx msg ledger.state t v amount)
    (ha : ledger.accepts (.submitReport creator msg) = true) (ringID nodeKey : Bytes) :
    ledger.charge ringID nodeKey (.message (.submitReport creator msg)) =
      if msg.report.ringId = ringID ∧ msg.report.accusedNodeKey = nodeKey then
        some ⟨amount, v.blockUnixTime, v.ring.reporting.demeritConfig.resetIntervalSeconds⟩ else none := by
  simp [Ledger.charge, ha, h.chargeFor_eq]

variable {audit : Audit Γ}

theorem Audit.Kept.step (h : audit.Kept) (turn : Turn Γ) : (audit.step turn).Kept where
  keyed := Ledger.keyed_step h.keyed turn
  ids := Ledger.ids_short_step h.keyed h.ids turn
  tallies := by
    intro ringID nodeKey hsh
    have hb := h.tallies ringID nodeKey hsh
    show Tallies ((audit.ledger.step turn).state.demerits.get _)
      (windowOf (audit.charges ringID nodeKey ++ (audit.ledger.charge ringID nodeKey turn).toList))
    rcases audit.ledger.step_demerits turn with ⟨hnone, _, hd⟩ | ⟨creator, msg, v, amount, rfl, ha, hs⟩
    · rw [hnone, hd, Option.toList_none, append_nil]
      exact hb
    · have hr := hs.validated.ring
      rw [hs.charge_eq ha, hs.demerits, get_set]
      by_cases hno : msg.report.ringId = ringID ∧ msg.report.accusedNodeKey = nodeKey
      · obtain ⟨rfl, rfl⟩ := hno
        rw [if_pos rfl, if_pos ⟨rfl, rfl⟩, Option.toList_some, windowOf_append_singleton]
        exact hb.extend _
      · have hke : nodeDemeritStoreKey ringID nodeKey ≠ nodeDemeritStoreKey msg.report.ringId msg.report.accusedNodeKey := by
          intro heq
          obtain ⟨rfl, rfl⟩ := nodeDemeritStoreKey_inj hsh (h.ids _ _ hr) heq
          exact hno ⟨rfl, rfl⟩
        rw [if_neg hke, if_neg hno, Option.toList_none, append_nil]
        exact hb

theorem Audit.Kept.effective (h : audit.Kept) (hf : audit.Fits) {ringID : Bytes} (nodeKey : Bytes)
    (hs : ringID.length < 2 ^ 32) (now resetIntervalSeconds : UInt64) :
    (audit.ledger.state.getEffectiveNodeDemerits ringID nodeKey now resetIntervalSeconds).toNat =
      windowPoints (windowOf (audit.charges ringID nodeKey)) now resetIntervalSeconds := by
  have hef := (h.tallies ringID nodeKey hs).effective now resetIntervalSeconds
  have hle := windowPoints_le (windowOf (audit.charges ringID nodeKey)) now resetIntervalSeconds
  have hlt := hf ringID nodeKey hs
  unfold State.getEffectiveNodeDemerits
  rw [hef, Nat.mod_eq_of_lt (by omega)]

theorem Audit.Kept.addsUp (h : audit.Kept) (hf : audit.Fits) : audit.AddsUp := by
  intro ringID nodeKey ring hr
  exact h.effective hf nodeKey (h.ids ringID ring hr) _ _

variable {turn : Turn Γ}

theorem Audit.Kept.fits_step (h : audit.Kept) (hf : audit.Fits)
    (ht : audit.ledger.NoOverflow turn) : (audit.step turn).Fits := by
  intro ringID nodeKey hsh
  have hb := hf ringID nodeKey hsh
  show sumOf (windowOf (audit.charges ringID nodeKey ++ (audit.ledger.charge ringID nodeKey turn).toList)) < _
  rcases audit.ledger.step_demerits turn with ⟨hnone, _, _⟩ | ⟨creator, msg, v, amount, rfl, ha, hs⟩
  · rw [hnone, Option.toList_none, append_nil]
    exact hb
  · rw [hs.charge_eq ha]
    split
    · rename_i hno
      obtain ⟨rfl, rfl⟩ := hno
      have hsu := ht ha _ hs.sumWith_eq
      rw [h.effective hf _ hsh] at hsu
      rw [Option.toList_some, windowOf_append_singleton]
      rcases extendWindow_cases (windowOf (audit.charges msg.report.ringId msg.report.accusedNodeKey))
        ⟨amount, v.blockUnixTime, v.ring.reporting.demeritConfig.resetIntervalSeconds⟩ with ⟨_, hw⟩ | ⟨hp, hw, _⟩
      · rw [hw, sumOf_singleton]
        exact amount.toNat_lt
      · rw [hw]
        rwa [hp] at hsu
    · rw [Option.toList_none, append_nil]
      exact hb

theorem Audit.Kept.noOverflow (h : audit.Kept) (hf : audit.Fits)
    (haf : (audit.step turn).AddsUp) : audit.ledger.NoOverflow turn := by
  rcases audit.ledger.step_demerits turn with ⟨_, hr, _⟩ | ⟨creator, msg, v, amount, rfl, ha, hs⟩
  · unfold Ledger.NoOverflow
    split
    · intro ha
      rw [hr _ _ rfl] at ha
      cases ha
    · trivial
  · intro _ n hn
    have hri := hs.validated.ring
    have hsh := h.ids _ _ hri
    obtain rfl := Option.some.inj (hs.sumWith_eq.symm.trans hn)
    rw [h.effective hf _ hsh]
    rcases extendWindow_cases (windowOf (audit.charges msg.report.ringId msg.report.accusedNodeKey))
      ⟨amount, v.blockUnixTime, v.ring.reporting.demeritConfig.resetIntervalSeconds⟩ with ⟨hp, _⟩ | ⟨hp, _, hw⟩
    · have ham := amount.toNat_lt
      rw [hp]
      omega
    · -- the sum counts after the submission, so it is a number of 64 bits
      obtain ⟨next, hne, hco⟩ : ∃ next, (audit.ledger.step (.message (.submitReport creator msg))).state.rings.get
          msg.report.ringId = some next ∧ next.reporting.demeritConfig = v.ring.reporting.demeritConfig := by
        rcases hs.rings with hsame | ⟨next, hse, hco⟩
        · exact ⟨v.ring, by rw [hsame, hri], rfl⟩
        · refine ⟨next, ?_, hco⟩
          rw [hse, get_set, if_pos (h.keyed _ _ hri).symm]
      have hsu := haf msg.report.ringId msg.report.accusedNodeKey next hne
      have hch : (audit.step (.message (.submitReport creator msg))).charges msg.report.ringId msg.report.accusedNodeKey =
          audit.charges msg.report.ringId msg.report.accusedNodeKey ++
            [⟨amount, v.blockUnixTime, v.ring.reporting.demeritConfig.resetIntervalSeconds⟩] := by
        show _ ++ (audit.ledger.charge _ _ _).toList = _
        rw [hs.charge_eq ha, if_pos ⟨rfl, rfl⟩, Option.toList_some]
      have hno : (audit.step (.message (.submitReport creator msg))).ledger.now = v.blockUnixTime := hs.now.symm
      rw [hch, windowOf_append_singleton, hno, hco, hw] at hsu
      rw [hp, ← hsu]
      exact UInt64.toNat_lt _

theorem Audit.Kept.neverDrops (h : audit.Kept) (hf : audit.Fits)
    (ht : audit.ledger.NoOverflow turn) : audit.NeverDrops turn := by
  intro ringID nodeKey charge hch
  rcases audit.ledger.step_demerits turn with ⟨hnone, _, _⟩ | ⟨creator, msg, v, amount, rfl, ha, hs⟩
  · rw [hnone] at hch
    cases hch
  · have hb := hch
    rw [hs.charge_eq ha] at hch
    split at hch
    · rename_i hno
      obtain ⟨rfl, rfl⟩ := hno
      have hsh := h.ids _ _ hs.validated.ring
      have haf := (h.step (.message (.submitReport creator msg))).effective (h.fits_step hf ht)
        msg.report.accusedNodeKey hsh charge.now charge.resetIntervalSeconds
      have hcha : (audit.step (.message (.submitReport creator msg))).charges msg.report.ringId msg.report.accusedNodeKey =
          audit.charges msg.report.ringId msg.report.accusedNodeKey ++ [charge] := by
        show _ ++ (audit.ledger.charge _ _ _).toList = _
        rw [hb, Option.toList_some]
      rw [hcha, windowOf_append_singleton] at haf
      rw [UInt64.le_iff_toNat_le, h.effective hf _ hsh]
      refine Nat.le_trans ?_ (Nat.le_of_eq haf.symm)
      rcases extendWindow_cases (windowOf (audit.charges msg.report.ringId msg.report.accusedNodeKey)) charge with
        ⟨hp, _⟩ | ⟨hp, _, hw⟩
      · rw [hp]
        exact Nat.zero_le _
      · rw [hp, hw]
        exact Nat.le_add_right _ _
    · cases hch

/-- Demerits add up, and never drop when a node is reported again, exactly in the runs in which no sum is too large for 64
bits. -/
theorem demerits_add_up_iff (Γ : RingEnv) (ledger : Ledger Γ) (hkeyed : ledger.state.Keyed)
    (hids : ledger.state.rings.All fun id _ => id.length < 2 ^ 32) (hdemerits : ledger.state.demerits = KVStore.empty)
    (turns : List (Turn Γ)) :
    let audit : Audit Γ := ⟨ledger, fun _ _ => []⟩
    ((∀ n, (Run.run Audit.step audit (turns.take n)).AddsUp) ∧ Run.AllSteps Audit.step Audit.NeverDrops audit turns) ↔
      Run.AllSteps Audit.step (fun audit turn => audit.ledger.NoOverflow turn) audit turns := by
  intro audit
  have hke : audit.Kept := ⟨hkeyed, hids, fun _ _ _ => by rw [hdemerits]; rfl⟩
  have hfi : audit.Fits := fun _ _ _ => Nat.two_pow_pos 64
  have had := Run.forall_take_iff_allSteps Audit.step (I := Audit.Kept) (A := Audit.AddsUp) (C := Audit.Fits)
    (P := fun audit turn => audit.ledger.NoOverflow turn)
    (fun _ turn h => h.step turn) (fun _ h hf => h.addsUp hf) (fun _ _ h hf ht => h.fits_step hf ht)
    (fun _ _ h hf haf => h.noOverflow hf haf) hke hfi turns
  constructor
  · exact fun h => had.1 h.1
  · intro h
    refine ⟨had.2 h, ?_⟩
    exact Run.allSteps_induction Audit.step (I := fun audit => audit.Kept ∧ audit.Fits)
      (fun a turn ha ht => ⟨⟨ha.1.step turn, ha.1.fits_step ha.2 ht⟩, ha.1.neverDrops ha.2 ht⟩) h ⟨hke, hfi⟩

/-! ## A ring of three nodes -/

open Bytes (str)

/-- An environment in which an account is known by one byte, has 33 of these as its public key and may do everything. -/
def localModule : ModuleEnv := { plainLibraries with
  accAddressFromBech32 := .ok
  getAccount := fun _ address => some (some (List.replicate 33 (address.headD 0)))
  blsKeyValidate := fun _ => none
  verifyRingCreate := fun _ _ _ => .ok true
  registerRing := fun env _ _ _ => .ok env
  authority := str "authority"
  jsonObject := fun _ => .ok none
  jsonArray := fun _ => .ok []
  jsonUint16 := fun _ => .ok 0
  pubKeyAddress := fun key => [key.headD 0]
  spendableCoins := fun _ _ => []
  sendCoins := fun env _ _ _ => .ok env }

/-- Parameters that charge a node with this many points for being offline. -/
def offlineParams (points : UInt64) : Params := ⟨⟨⟨points, 86400, 1, 1⟩, 3⟩⟩

/-- A chain with these parameters and nothing else in its store. -/
def chargingLedger (points : UInt64) : Ledger localModule.ringEnv where
  state := ⟨⟨some (offlineParams points), .empty, .empty, ()⟩, .empty, .empty, .empty, .empty, .empty, .empty, []⟩
  ctx := blockAt 1 0

def trioMsg : MsgCreateRing :=
  ⟨[7], [nodeKey 1, nodeKey 2, nodeKey 3], 2, 86400, str "policy", none, 1, none, false, [], false⟩

def trioKey : Bytes := Bytes.hex (List.replicate 32 9)

def trioRing (points : UInt64) : Ring :=
  ((trioMsg.ring [7] (offlineParams points).defaultReporting).withKeys trioKey none).canonical

/-- Three nodes make themselves known, one of them creates the ring and all confirm its key. -/
def trioForms : List Message :=
  [joinMsg 1, joinMsg 2, joinMsg 3, .createRing trioMsg, .finalizeRing ⟨[1], trioMsg.ringID, trioKey, none⟩,
    .finalizeRing ⟨[2], trioMsg.ringID, trioKey, none⟩, .finalizeRing ⟨[3], trioMsg.ringID, trioKey, none⟩]

/-- The first node reports that the second was offline in a session, within the second of the first block. -/
def offlineReport (ring : Ring) (session : String) : ReportEnvelope where
  domain := str "orbis-mpc-fault-report"
  reportType := str "node_offline"
  chainId := str "vera-1"
  ringId := ring.id
  ringPk := ring.ringPk
  ringStateSha256 := sha256Hex (Canonical.encode (ring.stateFields true))
  reporterNodeKey := nodeKey 1
  accusedNodeKey := nodeKey 2
  accusedPeerId := str "peer"
  observedAt := 1700000000
  expiresAt := 1700000120
  payload := Canonical.encode [.bytes (str "sign"), .u64 1, .byte 1, .byte 1]
  sessionId := str session

def offlineMsg (ring : Ring) (session : String) : MsgSubmitReport where
  report := offlineReport ring session
  reportId := sha256Hex (Canonical.encode (offlineReport ring session).fields)
  signatureScheme := str "jubjub_frost"
  signature := List.replicate 64 1

/-- The ring is formed, and its second node is reported as offline in some sessions. -/
def offlineMessages (points : UInt64) (sessions : List String) : List Message :=
  trioForms ++ sessions.map fun session => .submitReport [1] (offlineMsg (trioRing points) session)

def halfOfAll : UInt64 := 9223372036854775808

/-- The second node is reported as offline in some sessions, in a ring that charges half of the points that fit. -/
def offlineTurns (sessions : List String) : List (Turn localModule.ringEnv) :=
  (offlineMessages halfOfAll sessions).map .message

/-- The chain after that, with its charges on record. -/
def offlineAudit (sessions : List String) : Audit localModule.ringEnv :=
  Run.run Audit.step ⟨chargingLedger halfOfAll, fun _ _ => []⟩ (offlineTurns sessions)

/-- The charges of the node, its demerits, the interval of its ring and the time. -/
def Audit.offline (audit : Audit localModule.ringEnv) : List Charge × Option NodeDemeritState × Option UInt64 × UInt64 :=
  (audit.charges trioMsg.ringID (nodeKey 2), audit.ledger.state.demerits.get (nodeDemeritStoreKey trioMsg.ringID (nodeKey 2)),
    (audit.ledger.state.rings.get trioMsg.ringID).map (·.reporting.demeritConfig.resetIntervalSeconds), audit.ledger.now)

def offlineCharge : Charge := ⟨halfOfAll, 1700000000, 86400⟩

theorem offlineAudit_eq :
    (offlineAudit ["first"]).offline = ([offlineCharge], some ⟨halfOfAll, 1700000000⟩, some 86400, 1700000000) ∧
      (offlineAudit ["first", "second"]).offline =
        ([offlineCharge, offlineCharge], some ⟨0, 1700000000⟩, some 86400, 1700000000) := by
  decide +kernel

theorem audit_ledger (audit : Audit Γ) (turns : List (Turn Γ)) :
    (Run.run Audit.step audit turns).ledger = Run.run Ledger.step audit.ledger turns := by
  induction turns generalizing audit with
  | nil => rfl
  | cons turn rest ih => exact ih (audit.step turn)

theorem offline_demerits : (Run.run Ledger.step (chargingLedger halfOfAll) (offlineTurns ["first"])).state.demerits.get
      (nodeDemeritStoreKey trioMsg.ringID (nodeKey 2)) = some ⟨halfOfAll, 1700000000⟩ ∧
    (Run.run Ledger.step (chargingLedger halfOfAll) (offlineTurns ["first", "second"])).state.demerits.get
      (nodeDemeritStoreKey trioMsg.ringID (nodeKey 2)) = some ⟨0, 1700000000⟩ := by
  rw [← audit_ledger ⟨chargingLedger halfOfAll, fun _ _ => []⟩, ← audit_ledger ⟨chargingLedger halfOfAll, fun _ _ => []⟩]
  obtain ⟨hf, hs⟩ := offlineAudit_eq
  exact ⟨(Prod.mk.inj (Prod.mk.inj hf).2).1, (Prod.mk.inj (Prod.mk.inj hs).2).1⟩

/-- After one report the demerits add up. -/
theorem demerits_add_up_once : (offlineAudit ["first"]).charges trioMsg.ringID (nodeKey 2) = [offlineCharge] ∧
    ∀ n, (Run.run Audit.step ⟨chargingLedger halfOfAll, fun _ _ => []⟩ ((offlineTurns ["first"]).take n)).AddsUp := by
  refine ⟨(Prod.mk.inj offlineAudit_eq.1).1, ?_⟩
  have ht : Run.AllSteps Audit.step (fun audit turn => audit.ledger.NoOverflow turn)
      ⟨chargingLedger halfOfAll, fun _ _ => []⟩ (offlineTurns ["first"]) := by
    refine ⟨trivial, trivial, trivial, trivial, trivial, trivial, trivial, ?_, trivial⟩
    exact Ledger.noOverflow_of_sumWith (n := 9223372036854775808) (by decide +kernel) (by decide)
  exact ((demerits_add_up_iff localModule.ringEnv (chargingLedger halfOfAll) (fun _ _ h => (nomatch h)) KVStore.All.empty rfl
    (offlineTurns ["first"])).2 ht).1

/-- A ring may charge half of the points that fit. The node of such a ring is above the threshold after one report and has no
points at all after another in the same window, whose charges sum up to more than fits. -/
theorem demerits_add_up_false : validateDemeritConfig (offlineParams halfOfAll).defaultReporting.demeritConfig = .ok () ∧
    (trioRing halfOfAll).reporting.kickThreshold ≤
      (offlineAudit ["first"]).ledger.state.getEffectiveNodeDemerits trioMsg.ringID (nodeKey 2) 1700000000 86400 ∧
    (offlineAudit ["first", "second"]).ledger.state.getEffectiveNodeDemerits trioMsg.ringID (nodeKey 2) 1700000000 86400 = 0 ∧
    windowPoints (windowOf ((offlineAudit ["first", "second"]).charges trioMsg.ringID (nodeKey 2))) 1700000000 86400 = 2 ^ 64 ∧
    ¬(offlineAudit ["first", "second"]).AddsUp := by
  obtain ⟨_, hf⟩ := Prod.mk.inj offlineAudit_eq.1
  obtain ⟨hch, hs⟩ := Prod.mk.inj offlineAudit_eq.2
  obtain ⟨hstored, hri, hno⟩ := And.intro (Prod.mk.inj hs).1 (Prod.mk.inj (Prod.mk.inj hs).2)
  have ha : (offlineAudit ["first", "second"]).ledger.state.getEffectiveNodeDemerits trioMsg.ringID (nodeKey 2) 1700000000
      86400 = 0 := by
    unfold State.getEffectiveNodeDemerits
    rw [hstored]
    rfl
  have hp : windowPoints (windowOf ((offlineAudit ["first", "second"]).charges trioMsg.ringID (nodeKey 2))) 1700000000
      86400 = 2 ^ 64 := by
    rw [hch]
    decide
  refine ⟨rfl, ?_, ha, hp, fun had => ?_⟩
  · unfold State.getEffectiveNodeDemerits
    rw [(Prod.mk.inj hf).1]
    decide
  · obtain ⟨ring, hget, hr⟩ := Option.map_eq_some_iff.1 hri
    have hsu := had trioMsg.ringID (nodeKey 2) ring hget
    rw [hr, hno, ha] at hsu
    exact absurd (hsu.trans hp) (by decide)

end Vera.Orbis
