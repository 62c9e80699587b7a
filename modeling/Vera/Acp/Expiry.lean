import Vera.Acp.OlderClaim

/-!
# Commitments that have expired

At the end of every block the commitments whose validity is over are flagged (`FlagExpiredCommitments` in
`x/acp/commitment/service.go`, called by `EndBlocker` in `x/acp/keeper/abci.go`). `ValidateOpening` does not read the flag; it
compares the times again, and agrees with the flag because heights and times of blocks do not fall.

One commitment whose validity cannot be read is an error of the whole end of the block, before any flag is set.
-/

namespace Vera.Acp.Registration

open Eff KVStore List Outcome
open Bytes (str)
open Commitment (RegistrationProof)

variable {Γ : Env}

/-! ## The end of a block -/

def isExpiredAgainst (Γ : Env) (c : RegistrationsCommitment) (ts : Timestamp) : Outcome Bytes Bool := do
  let creationTs ← deref c.metadata.creationTs
  isAfter Γ creationTs c.validity ts

/-- `GetNonExpiredCommitments`: the commitments whose flag is not set. -/
def State.getNonExpiredCommitments (s : State Γ) : List RegistrationsCommitment :=
  (s.commitments.entries.map Prod.snd).filter fun c => !c.expired

/-- The commitments of a list that have expired, with their flag set. -/
def newlyExpired (Γ : Env) (now : Timestamp) : List RegistrationsCommitment → Outcome Error (List RegistrationsCommitment)
  | [] => .ok []
  | c :: rest => do
    let expired ← (isExpiredAgainst Γ c now).mapErr .external
    let processed ← newlyExpired Γ now rest
    pure (if expired then { c with expired := true } :: processed else processed)

def updateCommitment (c : RegistrationsCommitment) : M Γ Unit :=
  Eff.modify fun s => { s with commitments := s.commitments.set c.id c }

def flagExpiredCommitments (block : BlockCtx) : M Γ (List RegistrationsCommitment) := do
  let now ← Eff.lift (Outcome.ofExcept .external (timestampFromCtx block))
  let s ← Eff.read
  let processed ← Eff.lift (newlyExpired Γ now s.getNonExpiredCommitments)
  Eff.forEach processed updateCommitment
  pure processed

def endBlocker (block : BlockCtx) : M Γ (List RegistrationsCommitment) := flagExpiredCommitments block

/-! ## What it does -/

/-- Whether a commitment is found to have expired. -/
def expiredBy (Γ : Env) (now : Timestamp) (c : RegistrationsCommitment) : Bool :=
  match isExpiredAgainst Γ c now with
  | .ok expired => expired
  | _ => false

variable {now : Timestamp} {c : RegistrationsCommitment} {processed : List RegistrationsCommitment} {s t : State Γ}
  {b : BlockCtx}

theorem expiredBy_iff : expiredBy Γ now c = true ↔ isExpiredAgainst Γ c now = .ok true := by
  unfold expiredBy
  split
  · rename_i expired h
    simp [h]
  · rename_i hne
    simp only [Bool.false_eq_true, false_iff]
    exact hne true

def RegistrationsCommitment.afterBlock (Γ : Env) (now : Timestamp) (c : RegistrationsCommitment) : RegistrationsCommitment :=
  { c with expired := c.expired || expiredBy Γ now c }

theorem afterBlock_of_flagged (now : Timestamp) (h : c.expired = true) : c.afterBlock Γ now = c := by
  obtain ⟨id, policyId, commitment, expired, validity, metadata⟩ := c
  obtain rfl : expired = true := h
  rfl

theorem newlyExpired_eq_ok {l : List RegistrationsCommitment} :
    newlyExpired Γ now l = .ok processed ↔ (∀ c ∈ l, (isExpiredAgainst Γ c now).isOk = true) ∧
      processed = (l.filter (expiredBy Γ now)).map fun c => { c with expired := true } := by
  induction l generalizing processed with
  | nil =>
    simp only [newlyExpired, Outcome.ok.injEq, not_mem_nil, false_imp_iff, implies_true, true_and, filter_nil, map_nil]
    exact eq_comm
  | cons c rest ih =>
    simp only [newlyExpired, bind_eq_ok, mapErr_eq_ok, pure_eq_ok, ih, forall_mem_cons, isOk_iff, filter_cons]
    constructor
    · rintro ⟨expired, hc, others, ⟨hrest, rfl⟩, rfl⟩
      refine ⟨⟨⟨expired, hc⟩, hrest⟩, ?_⟩
      have hexpired : expiredBy Γ now c = expired := by simp [expiredBy, hc]
      rw [hexpired]
      cases expired with
      | true => rfl
      | false => rfl
    · rintro ⟨⟨⟨expired, hc⟩, hrest⟩, rfl⟩
      refine ⟨expired, hc, _, ⟨hrest, rfl⟩, ?_⟩
      have hexpired : expiredBy Γ now c = expired := by simp [expiredBy, hc]
      rw [hexpired]
      cases expired with
      | true => rfl
      | false => rfl

theorem forEach_updateCommitment_ok : (Eff.forEach processed updateCommitment).Succeeds s () t ↔
      t = { s with commitments := s.commitments.setAll (processed.map fun c => (c.id, c)) } := by
  induction processed generalizing s with
  | nil => exact pure_ok.trans (by simp [KVStore.setAll])
  | cons c rest ih => exact modify_bind_ok.trans ih

/-- The end of a block that succeeds: every validity was read, and the commitments that have expired are stored again. -/
theorem endBlocker_ok : (endBlocker b).Succeeds s processed t ↔ ∃ now, timestampFromCtx b = .ok now ∧
      (∀ c ∈ s.getNonExpiredCommitments, (isExpiredAgainst Γ c now).isOk = true) ∧
      processed = (s.getNonExpiredCommitments.filter (expiredBy Γ now)).map (fun c => { c with expired := true }) ∧
      t = { s with commitments := s.commitments.setAll (processed.map fun c => (c.id, c)) } := by
  unfold endBlocker flagExpiredCommitments
  simp only [lift_bind_ok, read_bind_ok, ofExcept_eq_ok, newlyExpired_eq_ok]
  constructor
  · rintro ⟨now, hnow, p, ⟨hr, hp⟩, h⟩
    obtain ⟨_, t₁, hl, h⟩ := bind_ok.1 h
    obtain ⟨rfl, rfl⟩ := pure_ok.1 h
    exact ⟨now, hnow, hr, hp, forEach_updateCommitment_ok.1 hl⟩
  · rintro ⟨now, hnow, hr, hp, ht⟩
    exact ⟨now, hnow, processed, ⟨hr, hp⟩, bind_ok.2 ⟨(), t, forEach_updateCommitment_ok.2 ht, pure_ok.2 ⟨rfl, rfl⟩⟩⟩

def State.Keyed (s : State Γ) : Prop := s.commitments.All fun id c => c.id = id

theorem mem_getNonExpiredCommitments (hs : s.Keyed) :
    c ∈ s.getNonExpiredCommitments ↔ s.commitments.get c.id = some c ∧ c.expired = false := by
  simp only [State.getNonExpiredCommitments, mem_filter, mem_map, Prod.exists, exists_eq_right,
    mem_entries, Bool.not_eq_true']
  refine and_congr_left fun _ => ⟨?_, fun h => ⟨c.id, h⟩⟩
  rintro ⟨id, h⟩
  rw [hs id c h]
  exact h

theorem nodup_ids (hs : s.Keyed) {p : RegistrationsCommitment → Bool} :
    ((s.getNonExpiredCommitments.filter p).map fun c => c.id).Nodup := by
  have hsu : (s.getNonExpiredCommitments.filter p).Sublist (s.commitments.entries.map Prod.snd) :=
    filter_sublist.trans filter_sublist
  refine List.Nodup.sublist (hsu.map _) ?_
  have hids : (s.commitments.entries.map Prod.snd).map (fun c => c.id) = s.commitments.entries.map Prod.fst := by
    rw [map_map]
    refine map_congr_left fun e he => ?_
    exact hs e.1 e.2 (s.commitments.mem_entries.1 he)
  rw [hids]
  exact s.commitments.nodup_keys

theorem get_of_endBlocker
    (hs : s.Keyed) (hnow : timestampFromCtx b = .ok now) (h : (endBlocker b).Succeeds s processed t) (id : UInt64) :
    t.commitments.get id = (s.commitments.get id).map (RegistrationsCommitment.afterBlock Γ now) := by
  obtain ⟨now', hnow', -, hpr, rfl⟩ := endBlocker_ok.1 h
  obtain rfl : now = now' := Except.ok.inj (hnow.symm.trans hnow')
  subst hpr
  have hmem : ∀ e, e ∈ ((s.getNonExpiredCommitments.filter (expiredBy Γ now)).map fun c => { c with expired := true }).map
      (fun c => (c.id, c)) ↔ ∃ c, s.commitments.get c.id = some c ∧ c.expired = false ∧ expiredBy Γ now c = true ∧
        e = (c.id, { c with expired := true }) := by
    intro e
    simp only [map_map, mem_map, mem_filter, mem_getNonExpiredCommitments hs, Function.comp]
    constructor
    · rintro ⟨c, ⟨⟨hget, hflag⟩, hexpired⟩, rfl⟩
      exact ⟨c, hget, hflag, hexpired, rfl⟩
    · rintro ⟨c, hget, hflag, hexpired, rfl⟩
      exact ⟨c, ⟨⟨hget, hflag⟩, hexpired⟩, rfl⟩
  -- a commitment that is not among the processed ones stays as it is
  have hke : (∀ c, s.commitments.get id = some c → c.expired = false → expiredBy Γ now c = false) →
      (s.commitments.setAll (((s.getNonExpiredCommitments.filter (expiredBy Γ now)).map fun c =>
        { c with expired := true }).map fun c => (c.id, c))).get id = s.commitments.get id := by
    intro hnot
    refine get_setAll_of_notMem _ fun hin => ?_
    obtain ⟨e, he, rfl⟩ := mem_map.1 hin
    obtain ⟨c, hget, hflag, hexpired, rfl⟩ := (hmem e).1 he
    rw [hnot c hget hflag] at hexpired
    cases hexpired
  cases hget : s.commitments.get id with
  | none =>
    have hnone : ∀ c, s.commitments.get id = some c → c.expired = false → expiredBy Γ now c = false := by
      intro c hc
      rw [hget] at hc
      cases hc
    rw [hke hnone, hget]
    rfl
  | some c =>
    by_cases hp : c.expired = false ∧ expiredBy Γ now c = true
    · have hid : c.id = id := hs id c hget
      have hin := (hmem (id, { c with expired := true })).2 ⟨c, by rw [hid, hget], hp.1, hp.2, by rw [hid]⟩
      rw [get_setAll_of_mem _ ?_ hin]
      · simp [RegistrationsCommitment.afterBlock, hp.2]
      · rw [map_map, map_map]
        exact nodup_ids hs
    · rw [hke ?_, hget]
      · obtain ⟨id', p, commitment, expired, validity, metadata⟩ := c
        cases expired with
        | true => rfl
        | false => simpa [RegistrationsCommitment.afterBlock] using hp
      · intro c' hc' hflag
        obtain rfl := Option.some.inj (hget.symm.trans hc')
        exact Bool.not_eq_true _ ▸ fun hexpired => hp ⟨hflag, hexpired⟩

/-! ## When a validity is over -/

/-- The moment of a block is read back from its protobuf timestamp, as `TimestampFromProto` does with what `TimestampProto`
made of a time in the years 1 to 9999. -/
structure TimestampLaws (Γ : Env) : Prop where
  read : ∀ t : Time, t.inYears = true → Γ.timestampFromProto (some ⟨t.unix, t.nsec⟩) = .ok t

/-- The creation of a commitment and its validity, added up, lie before a block. -/
inductive RegistrationsCommitment.Lapsed (Γ : Env) (now : BlockCtx) (c : RegistrationsCommitment) : Prop
  | blocks (ts : Timestamp) (n : UInt64) (hts : c.metadata.creationTs = some ts) (hvalidity : c.validity = some (.blockCount n))
    (h : ts.blockHeight.toNat + n.toNat < now.height)
  | time (ts : Timestamp) (d : Option ProtoDuration) (created : Time) (length : Int) (hts : c.metadata.creationTs = some ts)
    (hvalidity : c.validity = some (.protoDuration d)) (hcreated : Γ.timestampFromProto ts.protoTs = .ok created)
    (hlength : Γ.durationFromProto d = .ok length) (h : (created.add length).before now.time = true)

/-- The height a commitment is valid until can be counted in 64 bits. -/
def RegistrationsCommitment.Fits (c : RegistrationsCommitment) : Prop :=
  ∀ ts n, c.metadata.creationTs = some ts → c.validity = some (.blockCount n) → ts.blockHeight.toNat + n.toNat < 2 ^ 64

def RegistrationsCommitment.fits (c : RegistrationsCommitment) : Bool :=
  match c.metadata.creationTs, c.validity with
  | some ts, some (.blockCount n) => ts.blockHeight.toNat + n.toNat < 2 ^ 64
  | _, _ => true

theorem RegistrationsCommitment.fits_iff : c.fits = true ↔ c.Fits := by
  unfold RegistrationsCommitment.fits
  split
  · rename_i ts n hts hvalidity
    rw [decide_eq_true_eq]
    constructor
    · intro h ts' n' hts' hvalidity'
      obtain rfl := Option.some.inj (hts.symm.trans hts')
      obtain ⟨⟩ := Option.some.inj (hvalidity.symm.trans hvalidity')
      exact h
    · exact fun h => h ts n hts hvalidity
  · rename_i hot
    exact iff_of_true rfl fun ts n hts hvalidity => absurd hvalidity (hot ts n hts)

instance RegistrationsCommitment.Fits.decidable (c : RegistrationsCommitment) : Decidable c.Fits :=
  decidable_of_iff (c.fits = true) RegistrationsCommitment.fits_iff

/-- The validity of a commitment can be read: a number of blocks, or a time that the protobuf library converts. -/
inductive RegistrationsCommitment.Readable (Γ : Env) (c : RegistrationsCommitment) : Prop
  | blocks (ts : Timestamp) (n : UInt64) (hts : c.metadata.creationTs = some ts) (hvalidity : c.validity = some (.blockCount n))
  | time (ts : Timestamp) (d : Option ProtoDuration) (created : Time) (length : Int) (hts : c.metadata.creationTs = some ts)
    (hvalidity : c.validity = some (.protoDuration d)) (hcreated : Γ.timestampFromProto ts.protoTs = .ok created)
    (hlength : Γ.durationFromProto d = .ok length)

/-- A block is not after another one: neither its height nor its time is. -/
def NotAfter (b b' : BlockCtx) : Prop := b.height ≤ b'.height ∧ b'.time.before b.time = false

instance NotAfter.decidable (b b' : BlockCtx) : Decidable (NotAfter b b') :=
  inferInstanceAs (Decidable (b.height ≤ b'.height ∧ b'.time.before b.time = false))

section Times

variable {b b' : BlockCtx} {now : Timestamp} {c : RegistrationsCommitment}

theorem timestampFromCtx_eq_ok :
    timestampFromCtx b = .ok now ↔ b.time.marshalable = true ∧ now = ⟨some ⟨b.time.unix, b.time.nsec⟩, b.height64⟩ := by
  unfold timestampFromCtx
  split
  · rename_i h
    rw [Except.ok.injEq]
    exact ⟨fun hnow => ⟨h, hnow.symm⟩, fun hnow => hnow.2.symm⟩
  · rename_i h
    simp [h]

theorem RegistrationsCommitment.Lapsed.mono (hle : NotAfter b b') (h : c.Lapsed Γ b) : c.Lapsed Γ b' := by
  cases h with
  | blocks ts n hts hvalidity h => exact .blocks ts n hts hvalidity (lt_of_lt_of_le h hle.1)
  | time ts d created length hts hvalidity hcreated hlength h =>
    exact .time ts d created length hts hvalidity hcreated hlength (Time.before_of_not_before h hle.2)

variable (laws : TimestampLaws Γ) (hb : b.time.IsInt64) (hnow : timestampFromCtx b = .ok now)

include laws hb hnow

theorem TimestampLaws.read_now : Γ.timestampFromProto now.protoTs = .ok b.time := by
  obtain ⟨hm, rfl⟩ := timestampFromCtx_eq_ok.1 hnow
  exact laws.read b.time (Time.inYears_of_marshalable hb hm)

theorem isExpiredAgainst_iff (hf : c.Fits) : isExpiredAgainst Γ c now = .ok true ↔ c.Lapsed Γ b := by
  have ht := laws.read_now hb hnow
  obtain ⟨-, rfl⟩ := timestampFromCtx_eq_ok.1 hnow
  simp only [isExpiredAgainst, isAfter, bind_eq_ok, deref_eq_ok]
  constructor
  · rintro ⟨ts, hts, d, hvalidity, h⟩
    cases d with
    | blockCount n =>
      refine .blocks ts n hts hvalidity ?_
      have hlt := of_decide_eq_true (Outcome.ok.inj h)
      rw [UInt64.lt_iff_toNat_lt, UInt64.toNat_add, Nat.mod_eq_of_lt (hf ts n hts hvalidity), b.toNat_height64] at hlt
      exact hlt
    | protoDuration d =>
      simp only [bind_eq_ok, ofExcept_eq_ok, pure_eq_ok] at h
      obtain ⟨created, hcreated, goNow, hg, length, hlength, h⟩ := h
      obtain rfl := Except.ok.inj (ht.symm.trans hg)
      exact .time ts d created length hts hvalidity hcreated hlength h
    | unset => cases h
  · rintro (⟨ts, n, hts, hvalidity, h⟩ | ⟨ts, d, created, length, hts, hvalidity, hcreated, hlength, h⟩)
    · refine ⟨ts, hts, _, hvalidity, ?_⟩
      dsimp only
      rw [Outcome.ok.injEq, decide_eq_true_eq, UInt64.lt_iff_toNat_lt, UInt64.toNat_add,
        Nat.mod_eq_of_lt (hf ts n hts hvalidity), b.toNat_height64]
      exact h
    · refine ⟨ts, hts, _, hvalidity, ?_⟩
      simp only [bind_eq_ok, ofExcept_eq_ok, pure_eq_ok]
      exact ⟨created, hcreated, b.time, ht, length, hlength, h⟩

theorem isExpiredAgainst_isOk (h : c.Readable Γ) : (isExpiredAgainst Γ c now).isOk = true := by
  have ht := laws.read_now hb hnow
  rw [isOk_iff]
  simp only [isExpiredAgainst, isAfter, bind_eq_ok, deref_eq_ok]
  rcases h with ⟨ts, n, hts, hvalidity⟩ | ⟨ts, d, created, length, hts, hvalidity, hcreated, hlength⟩
  · exact ⟨_, ts, hts, _, hvalidity, rfl⟩
  · refine ⟨b.time.after (created.add length), ts, hts, _, hvalidity, ?_⟩
    simp only [bind_eq_ok, ofExcept_eq_ok, pure_eq_ok]
    exact ⟨created, hcreated, b.time, ht, length, hlength, rfl⟩

end Times

/-! ## Runs of blocks -/

/-- What happens on the chain: a command in a block, and the end of a block. -/
inductive BlockStep where
  | command (ctx : CmdCtx) (cmd : Cmd)
  | endBlock (block : BlockCtx)

def BlockStep.block : BlockStep → BlockCtx
  | .command ctx _ => ctx.block
  | .endBlock block => block

/-- The state after a step; one that fails is undone. -/
def blockStep (s : State Γ) : BlockStep → State Γ
  | .command ctx cmd => step s (ctx, cmd)
  | .endBlock block => (endBlocker block).commit s

/-- The blocks come one after the other: neither heights nor times fall. -/
def InOrder (steps : List BlockStep) : Prop := steps.Pairwise fun x y => NotAfter x.block y.block

/-- A new commitment gets "the next free up id". -/
def NextIdFree (s : State Γ) : BlockStep → Prop
  | .command _ (.commitRegistrations _) => s.commitments.get (s.lastCommitmentId + 1) = none
  | _ => True

/-- The commitments are stored under their ids, and each flag was set at the end of a block of the run, at which the commitment was
found to have expired. -/
def FlagsFounded (steps : List BlockStep) (s : State Γ) : Prop :=
  s.commitments.All fun id c => c.id = id ∧ (c.expired = true →
    ∃ b now, .endBlock b ∈ steps ∧ timestampFromCtx b = .ok now ∧ expiredBy Γ now c = true)

section Steps

variable {s : State Γ} {a : BlockStep}

variable {steps : List BlockStep}

theorem FlagsFounded.keyed (hs : FlagsFounded steps s) : s.Keyed := fun id c h => (hs id c h).1

theorem FlagsFounded.mono {all : List BlockStep} (hs : FlagsFounded steps s) (hsu : steps ⊆ all) : FlagsFounded all s := by
  intro id c hc
  obtain ⟨hid, hf⟩ := hs id c hc
  refine ⟨hid, fun hflag => ?_⟩
  obtain ⟨b, now, hmem, hrest⟩ := hf hflag
  exact ⟨b, now, hsu hmem, hrest⟩

theorem commitments_of_command (ctx : CmdCtx) (cmd : Cmd) :
    (step s (ctx, cmd)).commitments = s.commitments ∨ ∃ commitment c, cmd = .commitRegistrations commitment ∧
      c.id = s.lastCommitmentId + 1 ∧ c.expired = false ∧ (step s (ctx, cmd)).commitments = s.commitments.set c.id c := by
  rcases commit_cases (dispatch ctx cmd) s with h | ⟨res, h⟩
  · exact .inl (congrArg State.commitments h)
  · have hw := dispatch_writes h
    unfold step
    dsimp only
    generalize (dispatch ctx cmd).commit s = t at hw
    cases hw with
    | committed commitment c hid hpolicy hexpired => exact .inr ⟨commitment, c, rfl, hid, hexpired, rfl⟩
    | registered | archived | unarchived | revealed | amended | flagged => exact .inl rfl

/-- The commitments after the end of a block: as they were if it failed, and otherwise with the flags of those that have
expired. -/
theorem commitments_of_endBlock (hs : s.Keyed) (b : BlockCtx) :
    blockStep s (.endBlock b) = s ∨ ∃ now, timestampFromCtx b = .ok now ∧
      ∀ id, (blockStep s (.endBlock b)).commitments.get id =
        (s.commitments.get id).map (RegistrationsCommitment.afterBlock Γ now) := by
  rcases commit_cases (endBlocker b) s with h | ⟨processed, h⟩
  · exact .inl h
  · obtain ⟨now, hnow, -⟩ := endBlocker_ok.1 h
    exact .inr ⟨now, hnow, get_of_endBlocker hs hnow h⟩

theorem flagsFounded_step (hmem : a ∈ steps) (hs : FlagsFounded steps s) : FlagsFounded steps (blockStep s a) := by
  cases a with
  | command ctx cmd =>
    unfold FlagsFounded
    change KVStore.All (step s (ctx, cmd)).commitments _
    rcases commitments_of_command (s := s) ctx cmd with h | ⟨commitment, c, -, -, hexpired, h⟩
    · rw [h]
      exact hs
    · rw [h]
      refine hs.set ⟨rfl, fun hflag => ?_⟩
      rw [hexpired] at hflag
      cases hflag
  | endBlock b =>
    rcases commitments_of_endBlock hs.keyed b with h | ⟨now, hnow, h⟩
    · rw [h]
      exact hs
    · intro id c' hc'
      rw [h id, Option.map_eq_some_iff] at hc'
      obtain ⟨c, hc, rfl⟩ := hc'
      obtain ⟨hid, hf⟩ := hs id c hc
      refine ⟨hid, fun hflag => ?_⟩
      rcases Bool.or_eq_true_iff.1 hflag with hold | hnew
      · obtain ⟨b₀, now₀, hb₀, hnow₀, hexpired⟩ := hf hold
        exact ⟨b₀, now₀, hb₀, hnow₀, hexpired⟩
      · exact ⟨b, now, hmem, hnow, hnew⟩

theorem flagged_step {id : UInt64} {c : RegistrationsCommitment} (hs : s.Keyed) (hf : NextIdFree s a)
    (hc : s.commitments.get id = some c) (hflag : c.expired = true) : (blockStep s a).commitments.get id = some c := by
  cases a with
  | command ctx cmd =>
    change (step s (ctx, cmd)).commitments.get id = some c
    rcases commitments_of_command (s := s) ctx cmd with h | ⟨commitment, c', rfl, hid, -, h⟩
    · rw [h]
      exact hc
    · rw [h, hid, get_set_of_ne _ _ ?_, hc]
      rintro rfl
      rw [show s.commitments.get (s.lastCommitmentId + 1) = none from hf] at hc
      cases hc
  | endBlock b =>
    rcases commitments_of_endBlock hs b with h | ⟨now, -, h⟩
    · rw [h]
      exact hc
    · rw [h, hc, Option.map_some, afterBlock_of_flagged now hflag]

end Steps

section Runs

variable {s₀ : State Γ} {steps : List BlockStep}

theorem flagsFounded_run (hst : s₀.commitments.All fun id c => c.id = id ∧ c.expired = false) :
    FlagsFounded steps (Run.run blockStep s₀ steps) := by
  refine Run.run_induction blockStep (P := fun _ a => a ∈ steps) (fun s a hs hmem => flagsFounded_step hmem hs)
    (Run.allSteps_of_forall blockStep (fun a ha => ha) s₀) fun id c hc => ?_
  obtain ⟨hid, hflag⟩ := hst id c hc
  refine ⟨hid, fun h => ?_⟩
  rw [hflag] at h
  cases h

variable {s : State Γ} {id : UInt64} {c : RegistrationsCommitment}

theorem flagged_run {all : List BlockStep} (hs : FlagsFounded all s) (hst : ∀ a ∈ steps, a ∈ all)
    (hf : Run.AllSteps blockStep NextIdFree s steps)
    (hc : s.commitments.get id = some c) (hflag : c.expired = true) :
    (Run.run blockStep s steps).commitments.get id = some c := by
  have hste : ∀ (s : State Γ) a, FlagsFounded all s ∧ s.commitments.get id = some c → NextIdFree s a ∧ a ∈ steps →
      FlagsFounded all (blockStep s a) ∧ (blockStep s a).commitments.get id = some c := by
    intro s a h ha
    exact ⟨flagsFounded_step (hst a ha.2) h.1, flagged_step h.1.keyed ha.1 h.2 hflag⟩
  exact (Run.run_induction blockStep hste (Run.allSteps_mem blockStep hf) ⟨hs, hc⟩).2

variable (laws : TimestampLaws Γ) {b : BlockCtx}
  (hordered : InOrder (steps ++ [.endBlock b]))
  (htimes : ∀ a ∈ steps ++ [.endBlock b], a.block.time.IsInt64)

include laws hordered htimes

theorem lapsed_of_flagged (hs : FlagsFounded (steps ++ [.endBlock b]) s)
    (hc : s.commitments.get id = some c) (hf : c.Fits) (hflag : c.expired = true) : c.Lapsed Γ b := by
  obtain ⟨b₀, now, hmem, hnow, hexpired⟩ := (hs id c hc).2 hflag
  have hl := (isExpiredAgainst_iff laws (htimes _ hmem) hnow hf).1 (expiredBy_iff.1 hexpired)
  rw [InOrder, pairwise_append] at hordered
  rcases mem_append.1 hmem with hbe | hla
  · exact hl.mono (hordered.2.2 _ hbe _ mem_cons_self)
  · obtain ⟨rfl⟩ : b₀ = b := by simpa using hla
    exact hl

end Runs

theorem validateOpening_of_lapsed (laws : TimestampLaws Γ) {ctx : CmdCtx} {id : UInt64}
    {c' : RegistrationsCommitment} {proof : Option RegistrationProof} {actor : Actor} (hc : s.commitments.get id = some c)
    (hl : c.Lapsed Γ b) (hf : c.Fits) (hle : NotAfter b ctx.block) (hct : ctx.block.time.IsInt64) :
    ¬(validateOpening ctx id proof actor).Succeeds s (c', true) t := by
  intro h
  obtain ⟨-, hc', -, now, ts, hnow, hts, ha⟩ := validateOpening_ok h
  obtain rfl := Option.some.inj (hc.symm.trans hc')
  have hexpired := (isExpiredAgainst_iff laws hct hnow hf).2 (hl.mono hle)
  simp only [isExpiredAgainst, bind_eq_ok, deref_eq_ok] at hexpired
  obtain ⟨ts', hts', hexpired⟩ := hexpired
  obtain rfl := Option.some.inj (hts.symm.trans hts')
  rw [ha] at hexpired
  cases hexpired

/-! ## A local chain -/

namespace Local

/-- The local engine, with times that are read back to the nanosecond. -/
def clock : Env := { engine with
  timestampFromProto := fun ts => match ts with
    | some ts => .ok ⟨ts.seconds + Time.unixToInternal, ts.nanos.toNat⟩
    | none => .error (str "timestamp: nil Timestamp") }

theorem clock_laws : TimestampLaws clock where
  read := by
    intro t ht
    simp [clock, Time.unix_of_inYears ht]

def commitmentOf (id : UInt64) (validity : Duration) : RegistrationsCommitment :=
  ⟨id, str "policy", str "commitment", false, some validity, ⟨some ⟨some ⟨1700000004, 0⟩, 4⟩, str "tx", bob, str "signer"⟩⟩

/-- One commitment that is valid for ten blocks, and one that is valid for a minute. -/
def twoKinds : State clock :=
  { State.init (Γ := clock) ([] : List RelationshipRecord) with
    commitments := (KVStore.empty.set 1 (commitmentOf 1 (.blockCount 10))).set 2
      (commitmentOf 2 (.protoDuration (some ⟨60, 0⟩)))
    lastCommitmentId := 2 }

/-- The end of block 5, and another commitment in block 6. -/
def twoBlocks : List BlockStep :=
  [.endBlock (ctx bob 5 (by decide)).block, .command (ctx bob 6 (by decide)) (commit 6 (by decide)).2]

end Local

end Vera.Acp.Registration
