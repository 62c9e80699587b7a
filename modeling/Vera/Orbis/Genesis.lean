import Vera.Lib.Restore
import Vera.Orbis.Documents
import Vera.Orbis.RingKeyAgreed

/-!
# The genesis of the Orbis module

`InitGenesis` and `ExportGenesis` (`x/orbis/module/genesis.go`), the check of a genesis state (`x/orbis/types/genesis.go`) and the
loops over the store (`x/orbis/keeper/store.go`). The demerits and the accepted reports are read from the keys they are under.
-/

namespace Vera.Orbis

open Eff List
open Bytes (str)

/-! ## Genesis states -/

structure NodeInfoEntry where
  nodeKey : Bytes
  nodeInfo : Option NodeInfo
  deriving Repr, DecidableEq

structure NodeDemeritEntry where
  ringId : Bytes
  nodeKey : Bytes
  points : UInt64
  windowStartedAt : UInt64
  deriving Repr, DecidableEq

structure AcceptedReportPairEntry where
  reportId : Bytes
  sessionId : Bytes
  expiresAt : UInt64
  deriving Repr, DecidableEq

structure GenesisState where
  params : Params
  rings : List Ring
  documents : List Document
  keyDerivations : List KeyDerivation
  nodeInfos : List NodeInfoEntry
  nodeDemerits : List NodeDemeritEntry
  acceptedReportPairs : List AcceptedReportPairEntry
  deriving Repr, DecidableEq

/-- The reporting of a ring that has none set. -/
def ReportingConfig.zero : ReportingConfig := ⟨⟨0, 0, 0, 0⟩, [], 0⟩

/-! ## Checks -/

section Checks

variable (Γ : Env)

/-- The error with what it is about in front of it. -/
def Error.within (text : Bytes) (e : Error) : Error := { e with msg := text ++ e.msg }

/-- Check that the backup nodes of a ring are different, with those seen so far. -/
def validateBackupsFrom (ringId : Bytes) (seen : List Bytes) : List Bytes → Except Error Unit
  | [] => pure ()
  | nodeKey :: rest => do
    check (nodeKey ∉ seen) ⟨.other, str "ring " ++ Γ.quote ringId ++ str " reporting config: duplicate backup node key " ++
      Γ.quote nodeKey⟩
    validateBackupsFrom ringId (nodeKey :: seen) rest

/-- Check a ring of a genesis state. One without reporting is given the defaults when it is stored. -/
def validateGenesisRing (r : Ring) : Except Error Unit := do
  (validateTrustedAuthRelayConfig Γ r.allowTrustedAuthRelays r.trustedAuthRelayDids).mapError
    (Error.within (str "ring " ++ Γ.quote r.id ++ str " trusted auth relays: "))
  if r.reporting = ReportingConfig.zero then pure ()
  else do
    (validateReportingNumbers r.reporting).mapError
      (Error.within (str "ring " ++ Γ.quote r.id ++ str " reporting config: "))
    validateBackupsFrom Γ r.id [] r.reporting.backupNodeKeys

def validateGenesisRings : List Ring → Except Error Unit
  | [] => pure ()
  | r :: rest => do
    validateGenesisRing Γ r
    validateGenesisRings rest

/-- Check the demerits of a genesis state, with the nodes seen so far. -/
def validateDemeritsFrom (knownRings : List Bytes) (seen : List (Bytes × Bytes)) : List NodeDemeritEntry → Except Error Unit
  | [] => pure ()
  | entry :: rest => do
    check (entry.ringId ≠ []) ⟨.other, str "node_demerits ring_id cannot be empty"⟩
    check (entry.nodeKey ≠ []) ⟨.other, str "node_demerits node_key cannot be empty"⟩
    check (entry.points ≠ 0) ⟨.other, str "node_demerits points must be at least 1"⟩
    check (entry.ringId ∈ knownRings) ⟨.other, str "node_demerits references unknown ring " ++ Γ.quote entry.ringId⟩
    check ((entry.ringId, entry.nodeKey) ∉ seen) ⟨.other, str "duplicate node_demerits entry for ring " ++
      Γ.quote entry.ringId ++ str " node " ++ Γ.quote entry.nodeKey⟩
    validateDemeritsFrom knownRings ((entry.ringId, entry.nodeKey) :: seen) rest

/-- Check the accepted reports of a genesis state, with the reports and sessions seen so far. -/
def validatePairsFrom (seenReports seenSessions : List Bytes) : List AcceptedReportPairEntry → Except Error Unit
  | [] => pure ()
  | entry :: rest => do
    check (entry.reportId ≠ []) ⟨.other, str "accepted_report_pairs report_id cannot be empty"⟩
    check (entry.sessionId ≠ []) ⟨.other, str "accepted_report_pairs session_id cannot be empty"⟩
    check (entry.expiresAt ≠ 0) ⟨.other, str "accepted_report_pairs expires_at cannot be zero"⟩
    check (entry.reportId ∉ seenReports)
      ⟨.other, str "duplicate accepted_report_pairs entry for report_id " ++ Γ.quote entry.reportId⟩
    check (entry.sessionId ∉ seenSessions)
      ⟨.other, str "duplicate accepted_report_pairs entry for session_id " ++ Γ.quote entry.sessionId⟩
    validatePairsFrom (entry.reportId :: seenReports) (entry.sessionId :: seenSessions) rest

def GenesisState.validate (gs : GenesisState) : Except Error Unit := do
  gs.params.validate
  validateGenesisRings Γ gs.rings
  validateDemeritsFrom Γ (gs.rings.map Ring.id) [] gs.nodeDemerits
  validatePairsFrom Γ [] [] gs.acceptedReportPairs

end Checks

/-! ## Export and import -/

/-- The ring and the node of a key of demerits. -/
def decodeNodeDemeritStoreKey (key : Bytes) : Option (Bytes × Bytes) :=
  if key.length < 4 then none
  else if key.length < 4 + Bytes.ofBigEndian (key.take 4) then none
  else some ((key.drop 4).take (Bytes.ofBigEndian (key.take 4)), key.drop (4 + Bytes.ofBigEndian (key.take 4)))

/-- `GetAllNodeDemerits`, which panics on a key that is not of this form. -/
def getAllNodeDemerits : List (Bytes × NodeDemeritState) → Outcome Error (List NodeDemeritEntry)
  | [] => pure []
  | (key, state) :: rest =>
    match decodeNodeDemeritStoreKey key with
    | none => .panic "invalid node demerit key"
    | some (ringID, nodeKey) => do
      let entries ← getAllNodeDemerits rest
      pure (⟨ringID, nodeKey, state.points, state.windowStartedAt⟩ :: entries)

/-- `GetAllAcceptedReportPairs`; keys that are too short are passed over. -/
def getAllAcceptedReportPairs (entries : List (Bytes × Bytes)) : List AcceptedReportPairEntry :=
  (entries.filter fun e => ¬e.1.length < 8).map fun e => ⟨e.1.drop 8, e.2, UInt64.ofNat (expiryOf e.1)⟩

variable {Λ : ModuleEnv}

/-- The genesis state of a store, with its demerits. -/
def State.genesisState (s : ModuleState Λ) (nodeDemerits : List NodeDemeritEntry) : GenesisState where
  params := Archive.getParams s.env
  rings := s.rings.entries.map Prod.snd
  documents := (Archive.documents s.env).entries.map Prod.snd
  keyDerivations := (Archive.keyDerivations s.env).entries.map Prod.snd
  nodeInfos := s.nodeInfos.entries.map fun e => ⟨e.1, some e.2⟩
  nodeDemerits := nodeDemerits
  acceptedReportPairs := getAllAcceptedReportPairs s.acceptedExpiry.entries

def exportGenesis : ModuleM Λ GenesisState := Eff.query fun s => do
  let nodeDemerits ← getAllNodeDemerits s.demerits.entries
  pure (s.genesisState nodeDemerits)

def initRing (params : Params) (ring : Ring) : ModuleM Λ Unit :=
  setRing (if ring.reporting = ReportingConfig.zero then
    { ring with reporting := reportingConfigFromDefaults params.defaultReporting } else ring)

/-- Store a node of a genesis state, if the entry has one. -/
def initNodeInfo (entry : NodeInfoEntry) : ModuleM Λ Unit :=
  match entry.nodeInfo with
  | none => pure ()
  | some nodeInfo => setNodeInfo (Γ := Λ.ringEnv) entry.nodeKey nodeInfo

def setNodeDemerits (ringID nodeKey : Bytes) (points windowStartedAt : UInt64) : ModuleM Λ Unit :=
  Eff.modify fun s => { s with demerits := s.demerits.set (nodeDemeritStoreKey ringID nodeKey) ⟨points, windowStartedAt⟩ }

def initGenesis (genState : GenesisState) : ModuleM Λ Unit := do
  (setParams genState.params).must
  Eff.forEach genState.rings (initRing genState.params)
  Eff.forEach genState.documents setDocument
  Eff.forEach genState.keyDerivations setKeyDerivation
  Eff.forEach genState.nodeInfos initNodeInfo
  Eff.forEach genState.nodeDemerits fun entry =>
    setNodeDemerits entry.ringId entry.nodeKey entry.points entry.windowStartedAt
  Eff.forEach genState.acceptedReportPairs fun entry => setAcceptedReportPair entry.reportId entry.sessionId entry.expiresAt

/-! ## Keys that are read -/

variable {ringID nodeKey key : Bytes} {Γ : Env}

theorem decode_nodeDemeritStoreKey (h : ringID.length < 2 ^ 32) :
    decodeNodeDemeritStoreKey (nodeDemeritStoreKey ringID nodeKey) = some (ringID, nodeKey) := by
  have hlength : (nodeDemeritStoreKey ringID nodeKey).length = 4 + ringID.length + nodeKey.length := by
    simp [nodeDemeritStoreKey, Nat.add_assoc]
  have ht : (nodeDemeritStoreKey ringID nodeKey).take 4 = Bytes.bigEndian 4 ringID.length := by
    unfold nodeDemeritStoreKey
    rw [append_assoc, take_left' (Bytes.length_bigEndian _ _)]
  have hd : (nodeDemeritStoreKey ringID nodeKey).drop 4 = ringID ++ nodeKey := by
    unfold nodeDemeritStoreKey
    rw [append_assoc, drop_left' (Bytes.length_bigEndian _ _)]
  have hco : Bytes.ofBigEndian ((nodeDemeritStoreKey ringID nodeKey).take 4) = ringID.length := by
    rw [ht, Bytes.ofBigEndian_bigEndian]
    exact Nat.mod_eq_of_lt (by omega)
  unfold decodeNodeDemeritStoreKey
  rw [hco, if_neg (by omega), if_neg (by omega), ← drop_drop, hd, take_left, drop_left]

theorem nodeDemeritStoreKey_of_decode
    (h : decodeNodeDemeritStoreKey key = some (ringID, nodeKey)) : nodeDemeritStoreKey ringID nodeKey = key := by
  unfold decodeNodeDemeritStoreKey at h
  split at h
  · cases h
  · rename_i hf
    split at h
    · cases h
    · rename_i hl
      obtain ⟨rfl, rfl⟩ := Prod.mk.inj (Option.some.inj h)
      have hlength : ((key.drop 4).take (Bytes.ofBigEndian (key.take 4))).length = Bytes.ofBigEndian (key.take 4) := by
        rw [length_take, length_drop]
        omega
      have hh : Bytes.bigEndian 4 (Bytes.ofBigEndian (key.take 4)) = key.take 4 := by
        have hb := Bytes.bigEndian_ofBigEndian (key.take 4)
        rwa [length_take, Nat.min_eq_left (by omega)] at hb
      unfold nodeDemeritStoreKey
      rw [hlength, hh, ← drop_drop, append_assoc, take_append_drop, take_append_drop]

theorem acceptedExpiryKey_of_length (h : ¬key.length < 8) :
    acceptedExpiryKey (UInt64.ofNat (expiryOf key)) (key.drop 8) = key := by
  have hlength : (key.take 8).length = 8 := by
    rw [length_take]
    omega
  have hlt := Bytes.ofBigEndian_lt (key.take 8)
  have hb := Bytes.bigEndian_ofBigEndian (key.take 8)
  rw [hlength] at hlt hb
  unfold acceptedExpiryKey expiryOf
  rw [UInt64.toNat_ofNat_of_lt' (by unfold UInt64.size; omega), hb, take_append_drop]

theorem expiryOf_acceptedExpiryKey (expiresAt : UInt64) (id : Bytes) :
    UInt64.ofNat (expiryOf (acceptedExpiryKey expiresAt id)) = expiresAt := by
  unfold expiryOf acceptedExpiryKey
  rw [take_left' (Bytes.length_bigEndian _ _), Bytes.ofBigEndian_bigEndian,
    Nat.mod_eq_of_lt (by have := expiresAt.toNat_lt; omega), UInt64.ofNat_toNat]

/-! ## States that can be exported -/

/-- The report of an expiry key and its session, when neither is empty and the time is not that of the epoch. -/
def PairEntry (key sessionID : Bytes) : Prop := ∃ expiresAt reportID,
  key = acceptedExpiryKey expiresAt reportID ∧ expiresAt ≠ 0 ∧ reportID ≠ [] ∧ sessionID ≠ []

def DemeritKey (rings : KVStore Bytes Ring) (key : Bytes) : Prop := ∃ ringID nodeKey ring,
  key = nodeDemeritStoreKey ringID nodeKey ∧ nodeKey ≠ [] ∧ rings.get ringID = some ring ∧ ring.ringPk ≠ []

/-- What the export relies on. -/
structure State.Exportable (s : ModuleState Λ) : Prop where
  sound : s.Sound
  indexed : s.Indexed
  params : (Archive.getParams s.env).validate = .ok ()
  documents : (Archive.documents s.env).All fun id document => document.id = id
  keyDerivations : (Archive.keyDerivations s.env).All fun id keyDerivation => keyDerivation.id = id
  ringIds : s.rings.All fun id _ => id.length < 2 ^ 32
  pairs : s.acceptedExpiry.All PairEntry
  demerits : s.demerits.All fun key _ => DemeritKey s.rings key

def State.Charged (s : ModuleState Λ) : Prop := s.demerits.All fun _ state => state.points ≠ 0

variable {s : ModuleState Λ}

def demeritEntry (e : Bytes × NodeDemeritState) : NodeDemeritEntry :=
  let names := (decodeNodeDemeritStoreKey e.1).getD ([], [])
  ⟨names.1, names.2, e.2.points, e.2.windowStartedAt⟩

theorem getAllNodeDemerits_of_decode {entries : List (Bytes × NodeDemeritState)}
    (h : ∀ e ∈ entries, (decodeNodeDemeritStoreKey e.1).isSome = true) :
    getAllNodeDemerits entries = .ok (entries.map demeritEntry) := by
  induction entries with
  | nil => rfl
  | cons e rest ih =>
    obtain ⟨names, hna⟩ := Option.isSome_iff_exists.1 (h e mem_cons_self)
    have hen : demeritEntry e = ⟨names.1, names.2, e.2.points, e.2.windowStartedAt⟩ := by
      unfold demeritEntry
      rw [hna]
      rfl
    unfold getAllNodeDemerits
    rw [hna, ih fun e' he' => h e' (mem_cons_of_mem _ he'), map_cons, hen]
    rfl

theorem State.Exportable.decode (hs : s.Exportable) {state : NodeDemeritState}
    (h : s.demerits.get key = some state) : ∃ ringID nodeKey ring, decodeNodeDemeritStoreKey key = some (ringID, nodeKey) ∧
      nodeKey ≠ [] ∧ s.rings.get ringID = some ring := by
  obtain ⟨ringID, nodeKey, ring, rfl, hno, hr, _⟩ := hs.demerits key state h
  exact ⟨ringID, nodeKey, ring, decode_nodeDemeritStoreKey (hs.ringIds ringID ring hr), hno, hr⟩

theorem State.Exportable.exports (hs : s.Exportable) :
    exportGenesis.Succeeds s (s.genesisState (s.demerits.entries.map demeritEntry)) s := by
  have hd : ∀ e ∈ s.demerits.entries, (decodeNodeDemeritStoreKey e.1).isSome = true := by
    intro e he
    obtain ⟨_, _, _, hr, _⟩ := hs.decode (s.demerits.mem_entries.1 he)
    rw [hr]
    rfl
  refine query_ok.2 ⟨?_, rfl⟩
  rw [getAllNodeDemerits_of_decode hd]
  rfl

/-! ### The check of what is exported -/

theorem mapError_eq_ok {ε δ α : Type} {x : Except ε α} {f : ε → δ} {a : α} : x.mapError f = .ok a ↔ x = .ok a := by
  cases x with
  | ok b => exact ⟨fun h => congrArg Except.ok (Except.ok.inj h), fun h => congrArg Except.ok (Except.ok.inj h)⟩
  | error e => exact ⟨(nomatch ·), (nomatch ·)⟩

theorem validateBackupsFrom_of_nodup {ringId : Bytes} {seen keys : List Bytes} (hno : keys.Nodup)
    (hs : ∀ key ∈ keys, key ∉ seen) : validateBackupsFrom Γ ringId seen keys = .ok () := by
  induction keys generalizing seen with
  | nil => rfl
  | cons key rest ih =>
    obtain ⟨hf, hrest⟩ := nodup_cons.1 hno
    refine check_bind_eq_ok.2 ⟨check_eq_ok.2 (hs key mem_cons_self), ih hrest ?_⟩
    intro other hot hmem
    rcases mem_cons.1 hmem with rfl | hmem
    · exact hf hot
    · exact hs other (mem_cons_of_mem _ hot) hmem

theorem validateReportingConfig_eq_ok {config : ReportingConfig} : validateReportingConfig Γ config = .ok () ↔
      validateReportingNumbers config = .ok () ∧ validateUniquePeerNodeKeys Γ config.backupNodeKeys = .ok () := by
  have hempty : (if 0 < config.backupNodeKeys.length then validateUniquePeerNodeKeys Γ config.backupNodeKeys else pure ()) =
      .ok () ↔ validateUniquePeerNodeKeys Γ config.backupNodeKeys = .ok () := by
    cases config.backupNodeKeys with
    | nil => exact ⟨fun _ => rfl, fun _ => rfl⟩
    | cons key rest => simp
  unfold validateReportingConfig validateReportingNumbers
  rw [check_bind_eq_ok, check_bind_eq_ok, check_bind_eq_ok, hempty, and_assoc]

theorem validateGenesisRing_of_valid {ring : Ring} (h : ring.Valid Γ) : validateGenesisRing Γ ring = .ok () := by
  obtain ⟨hnu, hb⟩ := validateReportingConfig_eq_ok.1 h.reporting
  refine check_bind_eq_ok.2 ⟨mapError_eq_ok.2 h.relays, ?_⟩
  split
  · rfl
  · exact check_bind_eq_ok.2 ⟨mapError_eq_ok.2 hnu,
      validateBackupsFrom_of_nodup (validateUniquePeerNodeKeys_eq_ok.1 hb).2 fun _ _ hmem => nomatch hmem⟩

theorem validateGenesisRings_of_valid {rings : List Ring} (h : ∀ ring ∈ rings, ring.Valid Γ) :
    validateGenesisRings Γ rings = .ok () := by
  induction rings with
  | nil => rfl
  | cons ring rest ih =>
    exact check_bind_eq_ok.2 ⟨validateGenesisRing_of_valid (h ring mem_cons_self),
      ih fun other hot => h other (mem_cons_of_mem _ hot)⟩

/-- The demerits of a genesis state pass their check when each entry does and no node of a ring comes twice. -/
theorem validateDemeritsFrom_eq_ok {knownRings : List Bytes} {seen : List (Bytes × Bytes)}
    {entries : List NodeDemeritEntry} : validateDemeritsFrom Γ knownRings seen entries = .ok () ↔
      (∀ e ∈ entries, (e.ringId ≠ [] ∧ e.nodeKey ≠ [] ∧ e.points ≠ 0 ∧ e.ringId ∈ knownRings) ∧ (e.ringId, e.nodeKey) ∉ seen) ∧
      (entries.map fun e => (e.ringId, e.nodeKey)).Nodup := by
  induction entries generalizing seen with
  | nil =>
    simp [validateDemeritsFrom]
    rfl
  | cons entry rest ih =>
    rw [validateDemeritsFrom]
    simp only [check_bind_eq_ok, check_eq_ok]
    rw [ih, ← unseenBy_cons_iff]
    simp only [and_assoc]

theorem validatePairsFrom_of_nodup {seenReports seenSessions : List Bytes} {entries : List AcceptedReportPairEntry}
    (hea : ∀ e ∈ entries, e.reportId ≠ [] ∧ e.sessionId ≠ [] ∧ e.expiresAt ≠ 0)
    (hr : (entries.map (·.reportId)).Nodup ∧ ∀ e ∈ entries, e.reportId ∉ seenReports)
    (hs : (entries.map (·.sessionId)).Nodup ∧ ∀ e ∈ entries, e.sessionId ∉ seenSessions) :
    validatePairsFrom Γ seenReports seenSessions entries = .ok () := by
  induction entries generalizing seenReports seenSessions with
  | nil => rfl
  | cons entry rest ih =>
    obtain ⟨hre, hse, hexp⟩ := hea entry mem_cons_self
    rw [validatePairsFrom]
    simp only [check_bind_eq_ok, check_eq_ok]
    have hr := unseenBy_cons_iff.2 (And.intro (fun e he => And.intro trivial (hr.2 e he)) hr.1)
    have hs := unseenBy_cons_iff.2 (And.intro (fun e he => And.intro trivial (hs.2 e he)) hs.1)
    refine ⟨hre, hse, hexp, hr.2.1, hs.2.1, ih ?_ ?_ ?_⟩
    · exact fun e he => hea e (mem_cons_of_mem _ he)
    · exact ⟨hr.2.2.2, fun e he => (hr.2.2.1 e he).2⟩
    · exact ⟨hs.2.2.2, fun e he => (hs.2.2.1 e he).2⟩

theorem State.Exportable.demeritEntry_names (hs : s.Exportable) {e : Bytes × NodeDemeritState} (he : e ∈ s.demerits.entries) :
    nodeDemeritStoreKey (demeritEntry e).ringId (demeritEntry e).nodeKey = e.1 ∧ (demeritEntry e).nodeKey ≠ [] ∧
      ∃ ring, s.rings.get (demeritEntry e).ringId = some ring := by
  obtain ⟨ringID, nodeKey, ring, hr, hno, hri⟩ := hs.decode (s.demerits.mem_entries.1 he)
  have hen : demeritEntry e = ⟨ringID, nodeKey, e.2.points, e.2.windowStartedAt⟩ := by
    unfold demeritEntry
    rw [hr]
    rfl
  rw [hen]
  exact ⟨nodeDemeritStoreKey_of_decode hr, hno, ring, hri⟩

theorem State.Exportable.demerits_valid_iff (hs : s.Exportable) :
    validateDemeritsFrom Γ ((s.rings.entries.map Prod.snd).map Ring.id) [] (s.demerits.entries.map demeritEntry) = .ok () ↔
      s.Charged := by
  rw [validateDemeritsFrom_eq_ok]
  constructor
  · rintro ⟨hea, _⟩ key state hget
    exact (hea _ (mem_map_of_mem (s.demerits.mem_entries.2 hget))).1.2.2.1
  · intro hch
    constructor
    · intro entry hen
      obtain ⟨⟨key, state⟩, he, rfl⟩ := mem_map.1 hen
      obtain ⟨_, hno, ring, hr⟩ := hs.demeritEntry_names he
      have hid : ring.id = (demeritEntry (key, state)).ringId := hs.sound.keyed _ ring hr
      refine ⟨⟨?_, hno, hch key state (s.demerits.mem_entries.1 he), ?_⟩, not_mem_nil⟩
      · rw [← hid]
        exact (hs.sound.rings _ ring hr).valid.id
      · rw [map_map]
        exact mem_map.2 ⟨_, s.rings.mem_entries.2 hr, hid⟩
    · -- the keys are different, and each is read off the names it gives
      have hke := s.demerits.nodup_keys
      have hm : s.demerits.entries.map Prod.fst =
          ((s.demerits.entries.map demeritEntry).map fun e => (e.ringId, e.nodeKey)).map fun names =>
            nodeDemeritStoreKey names.1 names.2 := by
        rw [map_map, map_map]
        exact map_congr_left fun e he => (hs.demeritEntry_names he).1.symm
      rw [hm] at hke
      exact hke.of_map

theorem State.Exportable.pairs_valid (hs : s.Exportable) :
    validatePairsFrom Γ [] [] (getAllAcceptedReportPairs s.acceptedExpiry.entries) = .ok () := by
  have hen : s.acceptedExpiry.entries.Nodup := s.acceptedExpiry.nodup_keys.of_map
  have hno := hen.filter fun e => ¬e.1.length < 8
  have hu := hs.indexed.unique
  unfold getAllAcceptedReportPairs
  refine validatePairsFrom_of_nodup ?_ ⟨?_, fun _ _ => not_mem_nil⟩ ⟨?_, fun _ _ => not_mem_nil⟩
  · intro entry hent
    obtain ⟨⟨key, sessionID⟩, he, rfl⟩ := mem_map.1 hent
    obtain ⟨expiresAt, reportID, rfl, hexp, hr, hse⟩ :=
      hs.pairs key sessionID (s.acceptedExpiry.mem_entries.1 (mem_filter.1 he).1)
    have hd : (acceptedExpiryKey expiresAt reportID).drop 8 = reportID := drop_left' (Bytes.length_bigEndian _ _)
    dsimp only
    rw [hd, expiryOf_acceptedExpiryKey]
    exact ⟨hr, hse, hexp⟩
  · rw [map_map]
    refine hno.map_on fun e he e' he' hsame => ?_
    exact hu e (mem_filter.1 he).1 e' (mem_filter.1 he').1 (.report (e.1.drop 8)) rfl hsame.symm
  · rw [map_map]
    refine hno.map_on fun e he e' he' hsame => ?_
    exact hu e (mem_filter.1 he).1 e' (mem_filter.1 he').1 (.session e.2) rfl hsame.symm

theorem State.Exportable.validate_iff (hs : s.Exportable) :
    (s.genesisState (s.demerits.entries.map demeritEntry)).validate Λ.ringEnv.toEnv = .ok () ↔ s.Charged := by
  have hr : validateGenesisRings Λ.ringEnv.toEnv (s.rings.entries.map Prod.snd) = .ok () := by
    refine validateGenesisRings_of_valid fun ring hri => ?_
    obtain ⟨⟨id, ring⟩, he, rfl⟩ := mem_map.1 hri
    exact (hs.sound.rings id ring (s.rings.mem_entries.1 he)).valid
  unfold GenesisState.validate
  rw [check_bind_eq_ok, check_bind_eq_ok, check_bind_eq_ok]
  constructor
  · rintro ⟨_, _, hd, _⟩
    exact hs.demerits_valid_iff.1 hd
  · intro hch
    exact ⟨hs.params, hr, hs.demerits_valid_iff.2 hch, hs.pairs_valid⟩

/-! ### The import of what is exported -/

/-- A store with these parts and no accepted reports. -/
def filled (params : Option Params) (documents : KVStore Bytes Document) (keyDerivations : KVStore Bytes KeyDerivation)
    (rings : KVStore Bytes Ring) (nodeInfos : KVStore Bytes NodeInfo) (demerits : KVStore Bytes NodeDemeritState)
    (modules : Λ.σ) (events : List Event) : ModuleState Λ where
  env := { params := params, documents := documents, keyDerivations := keyDerivations, modules := modules }
  rings := rings
  nodeInfos := nodeInfos
  acceptedReports := .empty
  acceptedSessions := .empty
  acceptedExpiry := .empty
  demerits := demerits
  events := events

def emptyStore (modules : Λ.σ) (events : List Event) : ModuleState Λ :=
  filled none .empty .empty .empty .empty .empty modules events

section Import

variable {params : Option Params} {documents : KVStore Bytes Document} {keyDerivations : KVStore Bytes KeyDerivation}
  {rings : KVStore Bytes Ring} {nodeInfos : KVStore Bytes NodeInfo} {demerits : KVStore Bytes NodeDemeritState}
  {modules : Λ.σ} {events : List Event}

variable {p : Params}

theorem setParams_emptyStore (hp : p.validate = .ok ()) :
    (setParams p).must.Succeeds (emptyStore modules events : ModuleState Λ) ()
      (filled (some p) .empty .empty .empty .empty .empty modules events) :=
  must_ok.2 (pass_bind_ok.2 ⟨(), hp, rfl⟩)

theorem forEach_fills {V α : Type} (src : KVStore Bytes V) (g : Bytes × V → α) (f : α → ModuleM Λ Unit)
    (hol : KVStore Bytes V → ModuleState Λ) (ht : ∀ key v, src.get key = some v → ∀ store,
      (f (g (key, v))).Succeeds (hol store) () (hol (store.set key v))) :
    (Eff.forEach (src.entries.map g) f).Succeeds (hol .empty) () (hol src) := by
  have hl := forEach_restores src g f (fun store t => t = hol store) (s := hol .empty) rfl ?_
  · obtain ⟨_, hl, rfl⟩ := hl
    exact hl
  · rintro key v hget store _ _ rfl
    exact ⟨_, ht key v hget store, rfl⟩

theorem State.Exportable.initRing_eq (hs : s.Exportable) {id : Bytes} {ring : Ring}
    (hget : s.rings.get id = some ring) (t : ModuleState Λ) :
    (initRing p ring).Succeeds t () { t with rings := t.rings.set id ring } := by
  obtain ⟨hv, hso, _, _⟩ := hs.sound.rings id ring hget
  have hid := hs.sound.keyed id ring hget
  have hr : ring.reporting ≠ ReportingConfig.zero := by
    intro hz
    have hnu := (validateReportingConfig_eq_ok.1 hv.reporting).1
    rw [hz] at hnu
    cases hnu
  unfold initRing
  rw [if_neg hr]
  refine modify_ok.2 ?_
  rw [hso, hid]

theorem State.Exportable.rings_restored (hs : s.Exportable) (p : Params) :
    (Eff.forEach (s.rings.entries.map Prod.snd) (initRing p)).Succeeds
      (filled params documents keyDerivations .empty nodeInfos demerits modules events) ()
      (filled params documents keyDerivations s.rings nodeInfos demerits modules events) := by
  refine forEach_fills s.rings Prod.snd (initRing p)
    (fun store => filled params documents keyDerivations store nodeInfos demerits modules events) ?_
  intro id ring hget store
  exact hs.initRing_eq hget _

theorem State.Exportable.documents_restored (hs : s.Exportable) :
    (Eff.forEach ((Archive.documents s.env).entries.map Prod.snd) setDocument).Succeeds
      (filled params .empty keyDerivations rings nodeInfos demerits modules events) ()
      (filled params (Archive.documents s.env) keyDerivations rings nodeInfos demerits modules events) := by
  refine forEach_fills (Archive.documents s.env) Prod.snd (setDocument (Λ := Λ))
    (fun store => filled params store keyDerivations rings nodeInfos demerits modules events) ?_
  intro id document hget store
  obtain rfl := hs.documents id document hget
  exact modify_ok.2 rfl

theorem State.Exportable.keyDerivations_restored (hs : s.Exportable) :
    (Eff.forEach ((Archive.keyDerivations s.env).entries.map Prod.snd) setKeyDerivation).Succeeds
      (filled params documents .empty rings nodeInfos demerits modules events) ()
      (filled params documents (Archive.keyDerivations s.env) rings nodeInfos demerits modules events) := by
  refine forEach_fills (Archive.keyDerivations s.env) Prod.snd (setKeyDerivation (Λ := Λ))
    (fun store => filled params documents store rings nodeInfos demerits modules events) ?_
  intro id keyDerivation hget store
  obtain rfl := hs.keyDerivations id keyDerivation hget
  exact modify_ok.2 rfl

theorem nodeInfos_restored (src : KVStore Bytes NodeInfo) :
    (Eff.forEach (src.entries.map fun e => (⟨e.1, some e.2⟩ : NodeInfoEntry)) initNodeInfo).Succeeds
      (filled params documents keyDerivations rings .empty demerits modules events : ModuleState Λ) ()
      (filled params documents keyDerivations rings src demerits modules events) := by
  refine forEach_fills src (fun e => (⟨e.1, some e.2⟩ : NodeInfoEntry)) (initNodeInfo (Λ := Λ))
    (fun store => filled params documents keyDerivations rings store demerits modules events) ?_
  intro key nodeInfo _ store
  exact modify_ok.2 rfl

theorem State.Exportable.demerits_restored (hs : s.Exportable) :
    (Eff.forEach (s.demerits.entries.map demeritEntry) fun entry =>
      setNodeDemerits entry.ringId entry.nodeKey entry.points entry.windowStartedAt).Succeeds
      (filled params documents keyDerivations rings nodeInfos .empty modules events : ModuleState Λ) ()
      (filled params documents keyDerivations rings nodeInfos s.demerits modules events) := by
  refine forEach_fills s.demerits demeritEntry
    (fun entry => setNodeDemerits (Λ := Λ) entry.ringId entry.nodeKey entry.points entry.windowStartedAt)
    (fun store => filled params documents keyDerivations rings nodeInfos store modules events) ?_
  intro key state hget store
  obtain ⟨hke, _, _⟩ := hs.demeritEntry_names (s.demerits.mem_entries.2 hget)
  refine modify_ok.2 ?_
  rw [hke]
  rfl

/-- The import of the accepted reports leaves the rest of the store alone and puts each under the key it was under. -/
theorem State.Exportable.pairs_restored (hs : s.Exportable) (t₀ : ModuleState Λ) (hempty : t₀.acceptedExpiry = .empty) :
    ∃ reports sessions, (Eff.forEach (getAllAcceptedReportPairs s.acceptedExpiry.entries) fun entry =>
      setAcceptedReportPair entry.reportId entry.sessionId entry.expiresAt).Succeeds t₀ ()
        { t₀ with acceptedReports := reports, acceptedSessions := sessions, acceptedExpiry := s.acceptedExpiry } := by
  have hlo : ∀ key sessionID, s.acceptedExpiry.get key = some sessionID → ¬key.length < 8 := by
    intro key sessionID hget
    obtain ⟨expiresAt, reportID, rfl, _⟩ := hs.pairs key sessionID hget
    simp [acceptedExpiryKey]
  have ha : s.acceptedExpiry.entries.filter (fun e => ¬e.1.length < 8) = s.acceptedExpiry.entries :=
    filter_eq_self.2 fun e he => decide_eq_true (hlo e.1 e.2 (s.acceptedExpiry.mem_entries.1 he))
  have hl := forEach_restores s.acceptedExpiry
    (fun e => (⟨e.1.drop 8, e.2, UInt64.ofNat (expiryOf e.1)⟩ : AcceptedReportPairEntry))
    (fun entry => setAcceptedReportPair (Γ := Λ.ringEnv.toEnv) entry.reportId entry.sessionId entry.expiresAt)
    (fun store t => ∃ reports sessions,
      t = { t₀ with acceptedReports := reports, acceptedSessions := sessions, acceptedExpiry := store }) (s := t₀)
    ⟨t₀.acceptedReports, t₀.acceptedSessions, by rw [← hempty]⟩ ?_
  · obtain ⟨_, hl, reports, sessions, rfl⟩ := hl
    unfold getAllAcceptedReportPairs
    rw [ha]
    exact ⟨reports, sessions, hl⟩
  · rintro key sessionID hget store _ _ ⟨reports, sessions, rfl⟩
    refine ⟨_, modify_ok.2 rfl, reports.set (key.drop 8) (), sessions.set sessionID (), ?_⟩
    unfold State.addPair
    rw [acceptedExpiryKey_of_length (hlo key sessionID hget)]

/-- What is exported is imported into an empty store, and only the records of accepted reports may differ after it. -/
theorem State.Exportable.imports (hs : s.Exportable) (modules : Λ.σ) (events : List Event) :
    ∃ reports sessions, (initGenesis (s.genesisState (s.demerits.entries.map demeritEntry))).Succeeds
      (emptyStore modules events) () { filled (some (Archive.getParams s.env)) (Archive.documents s.env)
        (Archive.keyDerivations s.env) s.rings s.nodeInfos s.demerits modules events with
          acceptedReports := reports, acceptedSessions := sessions, acceptedExpiry := s.acceptedExpiry } := by
  obtain ⟨reports, sessions, hp⟩ := hs.pairs_restored (filled (some (Archive.getParams s.env)) (Archive.documents s.env)
    (Archive.keyDerivations s.env) s.rings s.nodeInfos s.demerits modules events) rfl
  exact ⟨reports, sessions, bind_ok.2 ⟨(), _, setParams_emptyStore hs.params,
    bind_ok.2 ⟨(), _, hs.rings_restored _, bind_ok.2 ⟨(), _, hs.documents_restored,
    bind_ok.2 ⟨(), _, hs.keyDerivations_restored, bind_ok.2 ⟨(), _, nodeInfos_restored s.nodeInfos,
    bind_ok.2 ⟨(), _, hs.demerits_restored, hp⟩⟩⟩⟩⟩⟩⟩

end Import

/-- A state is exported, the export passes `Validate`, and once it is imported into an empty store the same is exported. -/
def RoundTrips (s : ModuleState Λ) : Prop := ∃ g, exportGenesis.Succeeds s g s ∧ g.validate Λ.ringEnv.toEnv = .ok () ∧
  ∀ (modules : Λ.σ) (events : List Event), ∃ t : ModuleState Λ,
    (initGenesis g).Succeeds (emptyStore modules events) () t ∧ exportGenesis.Succeeds t g t

theorem State.Exportable.roundTrips_iff (hs : s.Exportable) : RoundTrips s ↔ s.Charged := by
  constructor
  · rintro ⟨g, hexp, hv, _⟩
    have hg := (query_ok.1 hexp).1.symm.trans (query_ok.1 hs.exports).1
    rw [Outcome.ok.inj hg] at hv
    exact hs.validate_iff.1 hv
  · intro hch
    refine ⟨_, hs.exports, hs.validate_iff.2 hch, fun modules events => ?_⟩
    obtain ⟨reports, sessions, him⟩ := hs.imports modules events
    refine ⟨_, him, query_ok.2 ⟨?_, rfl⟩⟩
    -- the same demerits are read, and the other parts of the store are the same
    exact (query_ok.1 hs.exports).1

end Vera.Orbis
