import Vera.Orbis.RingWellFormed

/-!
# The key of a ring is agreed by its whole committee

The confirmations that a ring stores are those that were accepted since it was created, one for each node, all with the same
keys. The last of them gives the ring its keys, and nothing changes these again.
-/

namespace Vera.Orbis

open KVStore List

variable {Γ : RingEnv}

/-! ## The history of a ring -/

/-- The life of a ring since it was created: the committee it was created with and the confirmations that were accepted. -/
structure Lifetime where
  committee : List Bytes
  confirmed : List RingConfirmation
  deriving Repr, DecidableEq

/-- The confirmation of an accepted message, with the key of the node that signs it. -/
def Ledger.confirmation (ledger : Ledger Γ) (msg : MsgFinalizeRing) : List RingConfirmation :=
  match signerPublicKeyHex Γ ledger.state.env msg.creator with
  | .ok nodeKey => [msg.confirmation nodeKey]
  | .error _ => []

/-- How a turn goes into the history of a ring: an accepted creation starts it, an accepted confirmation is added to it. -/
def Ledger.record (id : Bytes) (ledger : Ledger Γ) (life : Option Lifetime) : Turn Γ → Option Lifetime
  | .message (.createRing msg) =>
    if ledger.accepts (.createRing msg) = true ∧ msg.ringID = id then some ⟨canonicalStrings msg.peerNodeKeys, []⟩ else life
  | .message (.finalizeRing msg) =>
    if ledger.accepts (.finalizeRing msg) = true ∧ msg.ringId = id then
      life.map fun l => { l with confirmed := l.confirmed ++ ledger.confirmation msg }
    else life
  | _ => life

/-- One turn of a ledger and of the history of a ring beside it. -/
def recordedStep (id : Bytes) (p : Ledger Γ × Option Lifetime) (turn : Turn Γ) : Ledger Γ × Option Lifetime :=
  (p.1.step turn, p.1.record id p.2 turn)

def Ledger.lifetime (ledger : Ledger Γ) (id : Bytes) (turns : List (Turn Γ)) : Option Lifetime :=
  (Run.run (recordedStep id) (ledger, none) turns).2

theorem recordedStep_run_fst (id : Bytes) (p : Ledger Γ × Option Lifetime) (turns : List (Turn Γ)) :
    (Run.run (recordedStep id) p turns).1 = Run.run Ledger.step p.1 turns := by
  induction turns generalizing p with
  | nil => rfl
  | cons turn rest ih => exact ih (recordedStep id p turn)

variable {ledger : Ledger Γ} {id nodeKey : Bytes} {s t : State Γ.toEnv} {ring : Ring} {msg : MsgFinalizeRing}
  {life : Lifetime}

theorem Ledger.record_of_later {life : Option Lifetime} {msg : Message}
    (h : msg.forms = false) : ledger.record id life (.message msg) = life := by
  cases msg <;> first | rfl | nomatch h

theorem Ledger.record_of_not_accepted {life : Option Lifetime} {turn : Turn Γ}
    (h : ∀ msg, turn = .message msg → ledger.accepts msg = false) : ledger.record id life turn = life := by
  cases turn with
  | message msg =>
    have hm := h msg rfl
    cases msg with
    | createRing msg => simp [Ledger.record, hm]
    | finalizeRing msg => simp [Ledger.record, hm]
    | _ => rfl
  | endBlock => rfl
  | newBlock ctx => rfl
  | other env => rfl

/-! ## What a message does to one ring -/

theorem RingEffect.keyed {msg : Message} (hs : s.Keyed) (h : RingEffect s t msg) : t.Keyed := by
  cases h with
  | @created msg creatorDID defaults _ _ _ hr _ => exact hs.set (msg.ring creatorDID defaults) hr
  | disputed ring _ _ hr _ => exact hs.delete hr
  | @confirmed msg ring nodeKey _ _ _ hr _ => exact hs.set (ring.withConfirmation (msg.confirmation nodeKey)) hr
  | @finalized msg ring nodeKey _ _ _ _ hr _ => exact hs.set (ring.withKeys msg.ringPk msg.petPk) hr
  | cancelled ring _ _ hr _ => exact hs.delete hr
  | revised _ hre => exact hs.of_stores hre.1
  | onNodes _ hw => exact hs.of_eq hw.1

theorem RingEffect.keys_kept {msg : Message} (hs : s.Keyed) (h : RingEffect s t msg)
    (hget : s.rings.get id = some ring) (hke : ring.ringPk ≠ []) :
    ∃ next, t.rings.get id = some next ∧ next.ringPk = ring.ringPk ∧ next.petPk = ring.petPk := by
  have hot : ∀ forming : Ring, ∀ key, s.rings.get key = some forming → forming.ringPk = [] → id ≠ forming.id := by
    intro forming key hf hnone heq
    rw [hs key forming hf] at heq
    rw [heq, hf] at hget
    exact hke (Option.some.inj hget ▸ hnone)
  cases h with
  | created creatorDID defaults ha _ _ hr _ =>
    refine ⟨ring, ?_, rfl, rfl⟩
    rw [hr, get_set, if_neg, hget]
    intro heq
    rw [heq, ha] at hget
    cases hget
  | disputed forming _ hco hr _ =>
    refine ⟨ring, ?_, rfl, rfl⟩
    rw [hr, get_delete, if_neg (hot forming _ hco.stored hco.forming), hget]
  | confirmed forming _ hco _ _ hr _ =>
    refine ⟨ring, ?_, rfl, rfl⟩
    rw [hr, get_set, if_neg (hot forming _ hco.stored hco.forming), hget]
  | finalized forming _ hco _ _ _ hr _ =>
    refine ⟨ring, ?_, rfl, rfl⟩
    rw [hr, get_set, if_neg (hot forming _ hco.stored hco.forming), hget]
  | cancelled forming hstored hf hr _ =>
    refine ⟨ring, ?_, rfl, rfl⟩
    rw [hr, get_delete, if_neg (hot forming _ hstored hf), hget]
  | revised _ hrev =>
    obtain ⟨next, hne, hsame | ⟨n, hre, rfl⟩⟩ := hrev.1.get hs hget
    · exact ⟨next, hne, by rw [hsame], by rw [hsame]⟩
    · exact ⟨n.canonical, hne, hre.ringPk, hre.petPk⟩
  | onNodes _ hw => exact ⟨ring, by rw [hw.1, hget], rfl, rfl⟩

theorem Ledger.keyed_step (hs : ledger.state.Keyed) (turn : Turn Γ) : (ledger.step turn).state.Keyed := by
  rcases ledger.step_cases turn with ⟨hr, _, _⟩ | ⟨msg, _, _, hef⟩
  · exact hs.of_eq hr
  · exact hef.keyed hs

theorem Ledger.keys_kept (hs : ledger.state.Keyed)
    (hget : ledger.state.rings.get id = some ring) (hke : ring.ringPk ≠ []) (turns : List (Turn Γ)) :
    ∃ next, (Run.run Ledger.step ledger turns).state.rings.get id = some next ∧ next.ringPk = ring.ringPk ∧
      next.petPk = ring.petPk := by
  induction turns generalizing ledger ring with
  | nil => exact ⟨ring, hget, rfl, rfl⟩
  | cons turn rest ih =>
    have hst : ∃ next, (ledger.step turn).state.rings.get id = some next ∧ next.ringPk = ring.ringPk ∧
        next.petPk = ring.petPk := by
      rcases ledger.step_cases turn with ⟨hri, _, _⟩ | ⟨msg, _, _, hef⟩
      · exact ⟨ring, by rw [hri, hget], rfl, rfl⟩
      · exact hef.keys_kept hs hget hke
    obtain ⟨next, hne, hr, hp⟩ := hst
    obtain ⟨last, hlas, hla, hl⟩ := ih (Ledger.keyed_step hs turn) hne (hr ▸ hke)
    exact ⟨last, hlas, hla.trans hr, hl.trans hp⟩

/-! ## Agreement -/

/-- A history and the ring it is of: while the ring has no key it stores the confirmations of the history, which agree; once it
has its keys, all its nodes have confirmed them. -/
structure Lifetime.Fits (life : Lifetime) (ring : Ring) : Prop where
  sorted : canonicalStrings life.committee = life.committee
  different : life.committee.Nodup
  once : (life.confirmed.map (·.nodeKey)).Nodup
  members : ∀ c ∈ life.confirmed, c.nodeKey ∈ life.committee
  forming : ring.ringPk = [] → ring.peerNodeKeys = life.committee ∧ ring.confirmations = life.confirmed ∧
    ring.resharePending = false ∧ (∀ c ∈ life.confirmed, c.petPk.isSome = ring.requiresPet) ∧
    ∀ c ∈ life.confirmed, ∀ d ∈ life.confirmed, c.ringPk = d.ringPk ∧ c.petPk = d.petPk
  formed : ring.ringPk ≠ [] → life.committee.length ≤ life.confirmed.length ∧ (ring.petPk.isSome = ring.requiresPet) ∧
    ∀ c ∈ life.confirmed, c.ringPk = ring.ringPk ∧ c.petPk = ring.petPk

theorem Lifetime.Fits.created {msg : MsgCreateRing} {creatorDID : Bytes} {defaults : ReportingDefaults}
    (hv : validateRing Γ.toEnv (msg.ring creatorDID defaults) = .ok ()) :
    Lifetime.Fits ⟨canonicalStrings msg.peerNodeKeys, []⟩ (msg.ring creatorDID defaults).canonical where
  sorted := canonicalStrings_canonicalStrings _
  different := (validateUniquePeerNodeKeys_eq_ok.1 (validateRing_eq_ok.1 hv).peerKeys).2
  once := nodup_nil
  members := fun _ h => nomatch h
  forming := fun _ => ⟨canonicalStrings_canonicalStrings _, rfl, rfl, fun _ h => (nomatch h), fun _ h => nomatch h⟩
  formed := fun h => absurd rfl h

/-- Two confirmations that do not conflict name the same keys, if both name a second key exactly when the ring requires one. -/
theorem Ring.agrees_of_not_conflicts {new earlier : RingConfirmation} (h : ring.conflicts new earlier = false)
    (hnew : new.petPk.isSome = ring.requiresPet) (hea : earlier.petPk.isSome = ring.requiresPet) :
    earlier.ringPk = new.ringPk ∧ earlier.petPk = new.petPk := by
  obtain ⟨hri, hp⟩ := Bool.or_eq_false_iff.1 h
  refine ⟨by simpa using hri, ?_⟩
  cases hr : ring.requiresPet with
  | false =>
    rw [hr] at hnew hea
    rw [Option.isSome_eq_false_iff.1 hnew |> Option.isNone_iff_eq_none.1,
      Option.isSome_eq_false_iff.1 hea |> Option.isNone_iff_eq_none.1]
  | true =>
    rw [hr] at hnew hea hp
    obtain ⟨a, ha⟩ := Option.isSome_iff_exists.1 hnew
    obtain ⟨b, hb⟩ := Option.isSome_iff_exists.1 hea
    rw [ha, hb] at hp ⊢
    simpa using hp

theorem Lifetime.Fits.extended (h : life.Fits ring) (hco : Confirms Γ s msg ring nodeKey)
    (ha : ∀ c ∈ ring.confirmations, ring.conflicts (msg.confirmation nodeKey) c = false) :
    ((life.confirmed ++ [msg.confirmation nodeKey]).map (·.nodeKey)).Nodup ∧
      (∀ c ∈ life.confirmed ++ [msg.confirmation nodeKey], c.nodeKey ∈ life.committee) ∧
      (∀ c ∈ life.confirmed ++ [msg.confirmation nodeKey], c.petPk.isSome = ring.requiresPet) ∧
      ∀ c ∈ life.confirmed ++ [msg.confirmation nodeKey], c.ringPk = msg.ringPk ∧ c.petPk = msg.petPk := by
  obtain ⟨hp, hcon, _, hpe, _⟩ := h.forming hco.forming
  have hf := hco.first
  rw [hcon] at hf ha
  have hne : (msg.confirmation nodeKey).petPk.isSome = ring.requiresPet := hco.pet.symm
  refine ⟨?_, ?_, ?_, ?_⟩
  · rw [map_append, map_singleton, nodup_append]
    refine ⟨h.once, nodup_singleton _, ?_⟩
    intro key hke other hot heq
    obtain ⟨c, hc, rfl⟩ := mem_map.1 hke
    exact hf c hc (heq.trans (mem_singleton.1 hot))
  · intro c hc
    rcases mem_append.1 hc with hold | hnew
    · exact h.members c hold
    · rw [mem_singleton.1 hnew, ← hp]
      exact hco.member
  · intro c hc
    rcases mem_append.1 hc with hold | hnew
    · exact hpe c hold
    · rw [mem_singleton.1 hnew]
      exact hne
  · intro c hc
    rcases mem_append.1 hc with hold | hnew
    · exact Ring.agrees_of_not_conflicts (ha c hold) hne (hpe c hold)
    · rw [mem_singleton.1 hnew]
      exact ⟨rfl, rfl⟩

theorem Lifetime.Fits.confirmed_one (h : life.Fits ring) (hco : Confirms Γ s msg ring nodeKey)
    (ha : ∀ c ∈ ring.confirmations, ring.conflicts (msg.confirmation nodeKey) c = false) :
    Lifetime.Fits ⟨life.committee, life.confirmed ++ [msg.confirmation nodeKey]⟩
      (ring.withConfirmation (msg.confirmation nodeKey)).canonical := by
  obtain ⟨hpe, hcon, hp, _, _⟩ := h.forming hco.forming
  obtain ⟨hon, hm, hpet, hsame⟩ := h.extended hco ha
  refine ⟨h.sorted, h.different, hon, hm, ?_, fun hke => absurd hco.forming hke⟩
  intro _
  refine ⟨?_, ?_, ?_, hpet, ?_⟩
  · show canonicalStrings ring.peerNodeKeys = life.committee
    rw [hpe, h.sorted]
  · show ring.confirmations ++ [msg.confirmation nodeKey] = _
    rw [hcon]
  · rw [Ring.canonical_resharePending]
    exact hp
  · intro c hc d hd
    exact ⟨(hsame c hc).1.trans (hsame d hd).1.symm, (hsame c hc).2.trans (hsame d hd).2.symm⟩

theorem Lifetime.Fits.confirmed_all (h : life.Fits ring) (hco : Confirms Γ s msg ring nodeKey)
    (ha : ∀ c ∈ ring.confirmations, ring.conflicts (msg.confirmation nodeKey) c = false)
    (hcom : ring.peerNodeKeys.length ≤ ring.confirmations.length + 1) :
    Lifetime.Fits ⟨life.committee, life.confirmed ++ [msg.confirmation nodeKey]⟩
      (ring.withKeys msg.ringPk msg.petPk).canonical := by
  obtain ⟨hp, hcon, _, _, _⟩ := h.forming hco.forming
  obtain ⟨hon, hm, _, hsame⟩ := h.extended hco ha
  refine ⟨h.sorted, h.different, hon, hm, fun hnone => absurd hnone hco.named, ?_⟩
  intro _
  rw [hp, hcon] at hcom
  exact ⟨by simpa using hcom, hco.pet.symm, hsame⟩

theorem Lifetime.Fits.revised {nodeInfos : KVStore Bytes NodeInfo} {next : Ring} (h : life.Fits ring)
    (hr : Revises Γ.toEnv nodeInfos ring next) : life.Fits next.canonical := by
  refine ⟨h.sorted, h.different, h.once, h.members, ?_, ?_⟩
  · intro hnone
    have hf : ring.ringPk = [] := hr.ringPk ▸ hnone
    obtain ⟨hpe, hco, hp, hpet, hsame⟩ := h.forming hf
    obtain ⟨hnext, hnex, hne⟩ := hr.forming hf hp
    refine ⟨?_, hne.trans hco, ?_, ?_, hsame⟩
    · show canonicalStrings next.peerNodeKeys = life.committee
      rw [hnext, hpe, h.sorted]
    · rw [Ring.canonical_resharePending]
      exact hnex
    · intro c hc
      exact (hpet c hc).trans hr.requiresPet.symm
  · intro hke
    have hfo : ring.ringPk ≠ [] := hr.ringPk ▸ hke
    obtain ⟨hlength, hpet, hsame⟩ := h.formed hfo
    have hri : next.canonical.ringPk = ring.ringPk := hr.ringPk
    have hpetP : next.canonical.petPk = ring.petPk := hr.petPk
    have hre : next.canonical.requiresPet = ring.requiresPet := hr.requiresPet
    rw [hri, hpetP, hre]
    exact ⟨hlength, hpet, hsame⟩

/-- The invariant of a ledger and the history of a ring. -/
structure Recorded (id : Bytes) (p : Ledger Γ × Option Lifetime) : Prop where
  keyed : p.1.state.Keyed
  fits : ∀ ring, p.1.state.rings.get id = some ring → ∃ life, p.2 = some life ∧ life.Fits ring

theorem Ledger.record_created {life : Option Lifetime} {msg : MsgCreateRing}
    (ha : ledger.accepts (.createRing msg) = true) : ledger.record id life (.message (.createRing msg)) =
      if msg.ringID = id then some ⟨canonicalStrings msg.peerNodeKeys, []⟩ else life := by
  simp [Ledger.record, ha]

theorem Ledger.record_confirmed {life : Option Lifetime} (ha : ledger.accepts (.finalizeRing msg) = true)
    (hco : Confirms Γ ledger.state msg ring nodeKey) : ledger.record id life (.message (.finalizeRing msg)) =
      if msg.ringId = id then life.map fun l => ⟨l.committee, l.confirmed ++ [msg.confirmation nodeKey]⟩ else life := by
  simp [Ledger.record, ha, Ledger.confirmation, hco.signer]

theorem Recorded.step {p : Ledger Γ × Option Lifetime} (h : Recorded id p) (turn : Turn Γ) :
    Recorded id (recordedStep id p turn) := by
  refine ⟨Ledger.keyed_step h.keyed turn, ?_⟩
  intro ring hget
  show ∃ life, p.1.record id p.2 turn = some life ∧ life.Fits ring
  change (p.1.step turn).state.rings.get id = some ring at hget
  rcases p.1.step_cases turn with ⟨hr, _, hre⟩ | ⟨msg, rfl, ha, hef⟩
  · rw [hr] at hget
    rw [Ledger.record_of_not_accepted hre]
    exact h.fits ring hget
  generalize (p.1.step (.message msg)).state = t at hget hef
  cases hef with
  | @created msg creatorDID defaults _ hv _ hr _ =>
    rw [hr, get_set] at hget
    rw [Ledger.record_created ha]
    by_cases hid : id = msg.ringID
    · rw [if_pos hid] at hget
      rw [if_pos hid.symm, ← Option.some.inj hget]
      exact ⟨_, rfl, .created hv⟩
    · rw [if_neg hid] at hget
      rw [if_neg (Ne.symm hid)]
      exact h.fits ring hget
  | @disputed msg forming nodeKey hco hr _ =>
    rw [hr, get_delete, h.keyed _ forming hco.stored] at hget
    rw [Ledger.record_confirmed ha hco]
    by_cases hid : id = msg.ringId
    · rw [if_pos hid] at hget
      cases hget
    · rw [if_neg hid] at hget
      rw [if_neg (Ne.symm hid)]
      exact h.fits ring hget
  | @confirmed msg forming nodeKey hco hag _ hr _ =>
    rw [hr, get_set, h.keyed _ forming hco.stored] at hget
    rw [Ledger.record_confirmed ha hco]
    by_cases hid : id = msg.ringId
    · rw [if_pos hid] at hget
      obtain ⟨life, hl, hf⟩ := h.fits forming (by rw [hid]; exact hco.stored)
      rw [if_pos hid.symm, hl, ← Option.some.inj hget]
      exact ⟨_, rfl, hf.confirmed_one hco hag⟩
    · rw [if_neg hid] at hget
      rw [if_neg (Ne.symm hid)]
      exact h.fits ring hget
  | @finalized msg forming nodeKey hco hag hcom _ hr _ =>
    rw [hr, get_set, h.keyed _ forming hco.stored] at hget
    rw [Ledger.record_confirmed ha hco]
    by_cases hid : id = msg.ringId
    · rw [if_pos hid] at hget
      obtain ⟨life, hl, hf⟩ := h.fits forming (by rw [hid]; exact hco.stored)
      rw [if_pos hid.symm, hl, ← Option.some.inj hget]
      exact ⟨_, rfl, hf.confirmed_all hco hag hcom⟩
    · rw [if_neg hid] at hget
      rw [if_neg (Ne.symm hid)]
      exact h.fits ring hget
  | cancelled forming _ _ hr _ =>
    rw [hr, get_delete] at hget
    split at hget
    · cases hget
    · exact h.fits ring hget
  | revised hla hrevi =>
    rw [Ledger.record_of_later hla]
    obtain ⟨hr | ⟨key, old, next, hold, hid, hrev, hr⟩, _⟩ := hrevi
    · rw [hr] at hget
      exact h.fits ring hget
    · rw [hr, get_set, hid, h.keyed key old hold] at hget
      split at hget
      · rename_i hke
        obtain ⟨life, hl, hf⟩ := h.fits old (by rw [hke]; exact hold)
        rw [← Option.some.inj hget]
        exact ⟨life, hl, hf.revised hrev⟩
      · exact h.fits ring hget
  | onNodes hla hw =>
    rw [Ledger.record_of_later hla]
    rw [hw.1] at hget
    exact h.fits ring hget

/-- Different nodes of a committee that are as many as the committee are all of it, each once. -/
theorem Lifetime.Fits.each_once (h : life.Fits ring)
    (hlength : life.committee.length ≤ life.confirmed.length) (hm : nodeKey ∈ life.committee) :
    (life.confirmed.filter fun c => c.nodeKey == nodeKey).length = 1 := by
  have hs : life.confirmed.map (·.nodeKey) ⊆ life.committee := by
    intro key hke
    obtain ⟨c, hc, rfl⟩ := mem_map.1 hke
    exact h.members c hc
  have hp : (life.confirmed.map (·.nodeKey)).Perm life.committee :=
    (subperm_of_subset h.once hs).perm_of_length_le (by simpa using hlength)
  have hco : (life.confirmed.map (·.nodeKey)).count nodeKey = 1 :=
    count_eq_one_of_mem h.once (hp.mem_iff.2 hm)
  rw [List.count, countP_map, countP_eq_length_filter] at hco
  exact hco

/-- The key of a ring is agreed by the whole committee: a ring with a key has exactly one accepted confirmation of each node of
the committee it was created with, since it was created, and all of them name its keys; and its keys are the same after every
later run. -/
theorem ring_key_agreed (Γ : RingEnv) (ledger : Ledger Γ) (hrings : ledger.state.rings = KVStore.empty)
    (turns : List (Turn Γ)) (id : Bytes) (ring : Ring)
    (hget : (Run.run Ledger.step ledger turns).state.rings.get id = some ring) (hkey : ring.ringPk ≠ []) :
    (∃ life, ledger.lifetime id turns = some life ∧
      (∀ nodeKey ∈ life.committee, (life.confirmed.filter fun c => c.nodeKey == nodeKey).length = 1) ∧
      (∀ c ∈ life.confirmed, c.nodeKey ∈ life.committee ∧ c.ringPk = ring.ringPk ∧ c.petPk = ring.petPk) ∧
      (ring.petPk.isSome = ring.requiresPet)) ∧
    ∀ later : List (Turn Γ), ∃ next,
      (Run.run Ledger.step ledger (turns ++ later)).state.rings.get id = some next ∧ next.ringPk = ring.ringPk ∧
        next.petPk = ring.petPk := by
  have hs : Recorded id (ledger, none) := by
    refine ⟨?_, ?_⟩
    · intro other stored hstored
      rw [hrings] at hstored
      cases hstored
    · intro stored hstored
      rw [hrings] at hstored
      cases hstored
  have hr : Recorded id (Run.run (recordedStep id) (ledger, none) turns) :=
    Run.run_invariant (recordedStep id) (I := Recorded id) (fun _ turn h => h.step turn) hs turns
  have hl := recordedStep_run_fst id (ledger, none) turns
  rw [← hl] at hget
  obtain ⟨life, hli, hf⟩ := hr.fits ring hget
  obtain ⟨hlength, hp, hsame⟩ := hf.formed hkey
  refine ⟨⟨life, hli, fun _ hm => hf.each_once hlength hm, ?_, hp⟩, ?_⟩
  · intro c hc
    exact ⟨hf.members c hc, hsame c hc⟩
  · intro later
    obtain ⟨next, hne, hke⟩ := Ledger.keys_kept hr.keyed hget hkey later
    rw [hl] at hne
    exact ⟨next, by rw [Run.run_append]; exact hne, hke⟩

/-- The ring of two nodes, which is reshared after it was formed. -/
theorem ring_key_agreed_pair : ∃ ring,
    (Run.run Ledger.step localLedger pairTurns).state.rings.get pairMsg.ringID = some ring ∧
      (∃ life, localLedger.lifetime pairMsg.ringID pairTurns = some life ∧ life.committee.length = 2 ∧
        ∀ nodeKey ∈ life.committee, (life.confirmed.filter fun c => c.nodeKey == nodeKey).length = 1) ∧
      ∃ next, (Run.run Ledger.step localLedger (pairTurns ++ [reshareTurn])).state.rings.get pairMsg.ringID = some next ∧
        next.ringPk = ring.ringPk := by
  have hru : ((Run.run Ledger.step localLedger pairTurns).state.rings.get pairMsg.ringID).map
      (fun ring => decide (ring.ringPk ≠ [])) = some true := by decide +kernel
  have hp : (localLedger.lifetime pairMsg.ringID pairTurns).map (·.committee.length) = some 2 := by decide +kernel
  obtain ⟨ring, hget, hke⟩ := Option.map_eq_some_iff.1 hru
  obtain ⟨⟨life, hl, hon, _⟩, hla⟩ :=
    ring_key_agreed localLibraries localLedger rfl pairTurns pairMsg.ringID ring hget (of_decide_eq_true hke)
  rw [hl] at hp
  obtain ⟨next, hne, hr, _⟩ := hla [reshareTurn]
  exact ⟨ring, hget, ⟨life, hl, Option.some.inj hp, hon⟩, next, hne, hr⟩

end Vera.Orbis
