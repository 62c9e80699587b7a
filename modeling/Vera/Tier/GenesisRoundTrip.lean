import Vera.Lib.Restore
import Vera.Tier.Genesis

/-!
# Export and import of the tier store

A store that is exported and imported again has its records back, if every key and every address in it can be read. The total of
the lockups is summed again on import. The total of credits and the credits granted by the developers are not exported, so they
are back only if they were zero; until then a subscription that came back can be neither removed nor lowered.
-/

namespace Vera.Tier

open Eff KVStore List Outcome
open Bytes (str)

/-- The texts of addresses are read as the addresses they are the texts of, if they are read at all. -/
structure AddressCodec (Γ : Env) : Prop where
  acc : ∀ a b, Γ.accAddressFromBech32 (Γ.accAddressString a) = .ok b → b = a
  val : ∀ a b, Γ.valAddressFromBech32 (Γ.valAddressString a) = .ok b → b = a

section Portable

variable {Γ : Env}

/-! ## What can be exported and imported -/

/-- The key of a lockup can be read, and so can the addresses in it. -/
def lockupPortable (Γ : Env) (e : Bytes × Lockup) : Bool :=
  (lockupKeyToAddresses e.1 : Outcome Error _).isOk && (Γ.accAddressFromBech32 e.2.delegatorAddress).isOk &&
    (Γ.valAddressFromBech32 e.2.validatorAddress).isOk

def unlockingPortable (Γ : Env) (e : Bytes × UnlockingLockup) : Bool :=
  (unlockingLockupKeyToAddressesAtHeight e.1 : Outcome Error _).isOk && (Γ.accAddressFromBech32 e.2.delegatorAddress).isOk &&
    (Γ.valAddressFromBech32 e.2.validatorAddress).isOk

def developerPortable (Γ : Env) (e : Bytes × Developer) : Bool :=
  (developerKeyToAddress e.1 : Outcome Error _).isOk && (Γ.accAddressFromBech32 e.2.address).isOk

def subscriptionPortable (Γ : Env) (e : Bytes × UserSubscription) : Bool :=
  (userSubscriptionKeyToAddresses e.1 : Outcome Error _).isOk && (Γ.accAddressFromBech32 e.2.developer).isOk

/-- Every key of the store, and every address in a record, can be read. -/
structure State.Portable (s : State Γ) : Prop where
  lockups : ∀ e ∈ s.lockups.entries, lockupPortable Γ e = true
  unlockings : ∀ e ∈ s.unlockings.entries, unlockingPortable Γ e = true
  insurance : ∀ e ∈ s.insurance.entries, lockupPortable Γ e = true
  developers : ∀ e ∈ s.developers.entries, developerPortable Γ e = true
  subscriptions : ∀ e ∈ s.subscriptions.entries, subscriptionPortable Γ e = true

/-! ## Export -/

variable {V : Type} {s t : State Γ} {address a text : Bytes} {u : Unit}

theorem readValues_eq_ok {α : Type} {readKey : Bytes → Outcome Error α} {entries : List (Bytes × V)} {values : List V} :
    readValues readKey entries = .ok values ↔
      (∀ e ∈ entries, (readKey e.1).isOk = true) ∧ values = entries.map Prod.snd := by
  induction entries generalizing values with
  | nil =>
    constructor
    · intro h
      exact ⟨by simp, (Outcome.ok.inj h).symm⟩
    · rintro ⟨-, rfl⟩
      rfl
  | cons e rest ih =>
    obtain ⟨key, value⟩ := e
    simp only [readValues, bind_eq_ok, pure_eq_ok, ih, forall_mem_cons, isOk_iff]
    constructor
    · rintro ⟨a, ha, _, ⟨hrest, rfl⟩, rfl⟩
      exact ⟨⟨⟨a, ha⟩, hrest⟩, rfl⟩
    · rintro ⟨⟨⟨a, ha⟩, hrest⟩, rfl⟩
      exact ⟨a, ha, _, ⟨hrest, rfl⟩, rfl⟩

/-- What is exported of a store whose keys can be read. -/
def State.genesisState (s : State Γ) : GenesisState :=
  ⟨s.params, s.lockups.entries.map Prod.snd, s.unlockings.entries.map Prod.snd, s.insurance.entries.map Prod.snd,
    s.developers.entries.map Prod.snd, s.subscriptions.entries.map Prod.snd⟩

/-- Every key of the store can be read. -/
structure State.KeysRead (s : State Γ) : Prop where
  lockups : ∀ e ∈ s.lockups.entries, (lockupKeyToAddresses e.1 : Outcome Error _).isOk = true
  unlockings : ∀ e ∈ s.unlockings.entries, (unlockingLockupKeyToAddressesAtHeight e.1 : Outcome Error _).isOk = true
  insurance : ∀ e ∈ s.insurance.entries, (lockupKeyToAddresses e.1 : Outcome Error _).isOk = true
  developers : ∀ e ∈ s.developers.entries, (developerKeyToAddress e.1 : Outcome Error _).isOk = true
  subscriptions : ∀ e ∈ s.subscriptions.entries, (userSubscriptionKeyToAddresses e.1 : Outcome Error _).isOk = true

theorem State.Portable.keysRead (hs : s.Portable) : s.KeysRead where
  lockups e he := (Bool.and_eq_true_iff.1 (Bool.and_eq_true_iff.1 (hs.lockups e he)).1).1
  unlockings e he := (Bool.and_eq_true_iff.1 (Bool.and_eq_true_iff.1 (hs.unlockings e he)).1).1
  insurance e he := (Bool.and_eq_true_iff.1 (Bool.and_eq_true_iff.1 (hs.insurance e he)).1).1
  developers e he := (Bool.and_eq_true_iff.1 (hs.developers e he)).1
  subscriptions e he := (Bool.and_eq_true_iff.1 (hs.subscriptions e he)).1

theorem exportGenesis_ok {g : GenesisState} : exportGenesis.Succeeds s g t ↔ s.KeysRead ∧ g = s.genesisState ∧ t = s := by
  unfold exportGenesis State.getAllLockups State.getAllUnlockingLockups State.getAllInsuranceLockups State.getAllDevelopers
    State.getAllUserSubscriptions
  simp only [query_ok, bind_eq_ok, readValues_eq_ok, pure_eq_ok]
  constructor
  · rintro ⟨⟨_, ⟨h₁, rfl⟩, _, ⟨h₂, rfl⟩, _, ⟨h₃, rfl⟩, _, ⟨h₄, rfl⟩, _, ⟨h₅, rfl⟩, rfl⟩, ht⟩
    exact ⟨⟨h₁, h₂, h₃, h₄, h₅⟩, rfl, ht⟩
  · rintro ⟨hs, rfl, ht⟩
    exact ⟨⟨_, ⟨hs.lockups, rfl⟩, _, ⟨hs.unlockings, rfl⟩, _, ⟨hs.insurance, rfl⟩, _, ⟨hs.developers, rfl⟩, _,
      ⟨hs.subscriptions, rfl⟩, rfl⟩, ht⟩

/-! ## Import -/

theorem mustAccAddressFromBech32_ok :
    (mustAccAddressFromBech32 address).Succeeds s a t ↔ Γ.accAddressFromBech32 address = .ok a ∧ t = s := by
  unfold mustAccAddressFromBech32
  rw [must_ok, lift_ok, ofExcept_eq_ok]

theorem mustValAddressFromBech32_ok :
    (mustValAddressFromBech32 address).Succeeds s a t ↔ Γ.valAddressFromBech32 address = .ok a ∧ t = s := by
  unfold mustValAddressFromBech32
  rw [must_ok, lift_ok, ofExcept_eq_ok]

theorem mustAddresses_bind_ok {delegator validator : Bytes} {f : Bytes → Bytes → M Γ Unit} :
    (mustAccAddressFromBech32 delegator >>= fun d => mustValAddressFromBech32 validator >>= fun v => f d v).Succeeds s u t ↔
      ∃ d v, Γ.accAddressFromBech32 delegator = .ok d ∧ Γ.valAddressFromBech32 validator = .ok v ∧ (f d v).Succeeds s u t := by
  simp only [bind_ok, mustAccAddressFromBech32_ok, mustValAddressFromBech32_ok]
  constructor
  · rintro ⟨d, _, ⟨hd, rfl⟩, v, _, ⟨hv, rfl⟩, h⟩
    exact ⟨d, v, hd, hv, h⟩
  · rintro ⟨d, v, hd, hv, h⟩
    exact ⟨d, s, ⟨hd, rfl⟩, v, s, ⟨hv, rfl⟩, h⟩

theorem mustAddress_bind_ok {f : Bytes → M Γ Unit} :
    (mustAccAddressFromBech32 address >>= f).Succeeds s u t ↔ ∃ d, Γ.accAddressFromBech32 address = .ok d ∧ (f d).Succeeds s u t := by
  simp only [bind_ok, mustAccAddressFromBech32_ok]
  constructor
  · rintro ⟨d, _, ⟨hd, rfl⟩, h⟩
    exact ⟨d, hd, h⟩
  · rintro ⟨d, hd, h⟩
    exact ⟨d, s, ⟨hd, rfl⟩, h⟩

theorem AddressCodec.acc_eq (codec : AddressCodec Γ) (ht : text = Γ.accAddressString a)
    (hr : (Γ.accAddressFromBech32 text).isOk = true) : Γ.accAddressFromBech32 text = .ok a := by
  subst ht
  cases h : Γ.accAddressFromBech32 (Γ.accAddressString a) with
  | ok b => rw [codec.acc a b h]
  | error e =>
    rw [h] at hr
    cases hr

theorem AddressCodec.val_eq (codec : AddressCodec Γ) (ht : text = Γ.valAddressString a)
    (hr : (Γ.valAddressFromBech32 text).isOk = true) : Γ.valAddressFromBech32 text = .ok a := by
  subst ht
  cases h : Γ.valAddressFromBech32 (Γ.valAddressString a) with
  | ok b => rw [codec.val a b h]
  | error e =>
    rw [h] at hr
    cases hr

/-- A loop that stores one record after the other restores the store the records came from. -/
theorem forEach_restores (src : KVStore Bytes V) (f : V → M Γ Unit) (hol : KVStore Bytes V → List RecordKey → State Γ)
    (ht : ∀ key v, src.get key = some v → ∀ store writes, store.get key = none →
      ∃ writes', (f v).Succeeds (hol store writes) () (hol (store.set key v) writes')) (writes : List RecordKey) :
    ∃ writes', (Eff.forEach (src.entries.map Prod.snd) f).Succeeds (hol .empty writes) () (hol src writes') := by
  have hl := Eff.forEach_restores src Prod.snd f (fun store s => ∃ writes, s = hol store writes) ⟨writes, rfl⟩ ?_
  · obtain ⟨_, hl, writes', rfl⟩ := hl
    exact ⟨writes', hl⟩
  · rintro key v hv store _ hnew ⟨writes, rfl⟩
    obtain ⟨writes', h⟩ := ht key v hv store writes hnew
    exact ⟨_, h, writes', rfl⟩

/-! ### One record of each kind -/

section Turns

variable (codec : AddressCodec Γ) {s : State Γ} {key : Bytes}

include codec

variable {l : Lockup}

theorem lockup_addresses (hna : LockupNamed Γ key l) (hp : lockupPortable Γ (key, l) = true) :
    ∃ d v, key = lockupKey d v ∧ l = ⟨Γ.accAddressString d, Γ.valAddressString v, l.amount⟩ ∧
      Γ.accAddressFromBech32 l.delegatorAddress = .ok d ∧ Γ.valAddressFromBech32 l.validatorAddress = .ok v := by
  obtain ⟨d, v, hke, hd, hv⟩ := hna
  simp only [lockupPortable, Bool.and_eq_true] at hp
  exact ⟨d, v, hke, by rw [← hd, ← hv], codec.acc_eq hd hp.1.2, codec.val_eq hv hp.2⟩

theorem initLockup_restores (hna : LockupNamed Γ key l) (hp : lockupPortable Γ (key, l) = true)
    (hf : s.lockups.get key = none) (ht : isInt64 (s.getTotalLockupsAmount + l.amount) = true) :
    ∃ writes, (initLockup l).Succeeds s () { s with
      lockups := s.lockups.set key l, totalLockups := some (s.getTotalLockupsAmount + l.amount), writes := writes } := by
  obtain ⟨d, v, rfl, hl, hd, hv⟩ := lockup_addresses codec hna hp
  have hnone : s.getLockupAmount d v = 0 := by
    unfold State.getLockupAmount State.getLockup
    rw [hf]
    rfl
  have ha : (addLockup d v l.amount).Succeeds s () _ := addLockup_ok.2 ⟨ht, rfl⟩
  rw [hnone, add_zero, State.withLockup, ← hl] at ha
  exact ⟨_, mustAddresses_bind_ok.2 ⟨d, v, hd, hv, bind_ok.2 ⟨.ok (), _, ha.attempt, pure_ok.2 ⟨rfl, rfl⟩⟩⟩⟩

theorem initUnlockingLockup_restores {u : UnlockingLockup} (hna : UnlockingNamed Γ key u)
    (hp : unlockingPortable Γ (key, u) = true) (hf : s.unlockings.get key = none) :
    ∃ writes, (initUnlockingLockup u).Succeeds s () { s with unlockings := s.unlockings.set key u, writes := writes } := by
  obtain ⟨d, v, rfl, hd, hv, ht⟩ := hna
  simp only [unlockingPortable, Bool.and_eq_true] at hp
  have hnone : ¬(s.getUnlockingLockup d v u.creationHeight).isSome = true := by
    unfold State.getUnlockingLockup
    simp [hf]
  refine ⟨s.writes ++ [.unlockingLockup d v u.creationHeight], mustAddresses_bind_ok.2
    ⟨d, v, codec.acc_eq hd hp.1.2, codec.val_eq hv hp.2, read_bind_ok.2 ?_⟩⟩
  rw [if_neg hnone, setUnlockingLockup_ok, ← hd, ← hv]
  exact ⟨ht, rfl⟩

theorem initInsuranceLockup_restores (hna : LockupNamed Γ key l) (hp : lockupPortable Γ (key, l) = true)
    (hf : s.insurance.get key = none) :
    ∃ writes, (initInsuranceLockup l).Succeeds s () { s with insurance := s.insurance.set key l, writes := writes } := by
  obtain ⟨d, v, rfl, hl, hd, hv⟩ := lockup_addresses codec hna hp
  have hnone : s.getInsuranceLockupAmount d v = 0 := by
    unfold State.getInsuranceLockupAmount State.getInsuranceLockup
    rw [hf]
    rfl
  refine ⟨s.writes ++ [.lockup d v], mustAddresses_bind_ok.2 ⟨d, v, hd, hv, read_bind_ok.2 ?_⟩⟩
  rw [hnone, add_zero]
  refine modify_ok.2 ?_
  rw [← hl]

theorem initDeveloper_restores {developer : Developer} (hna : DeveloperNamed Γ key developer)
    (hp : developerPortable Γ (key, developer) = true) :
    ∃ writes, (initDeveloper developer).Succeeds s () { s with developers := s.developers.set key developer, writes := writes } := by
  obtain ⟨d, rfl, hd⟩ := hna
  simp only [developerPortable, Bool.and_eq_true] at hp
  exact ⟨_, mustAddress_bind_ok.2 ⟨d, codec.acc_eq hd hp.2, modify_ok.2 rfl⟩⟩

theorem initUserSubscription_restores {sub : UserSubscription} (hna : SubscriptionNamed Γ key sub)
    (hp : subscriptionPortable Γ (key, sub) = true) :
    ∃ writes, (initUserSubscription sub).Succeeds s ()
      { s with subscriptions := s.subscriptions.set key sub, writes := writes } := by
  obtain ⟨d, rfl, hd⟩ := hna
  simp only [subscriptionPortable, Bool.and_eq_true] at hp
  exact ⟨_, mustAddress_bind_ok.2 ⟨d, codec.acc_eq hd hp.2, modify_ok.2 rfl⟩⟩

end Turns

/-! ### All records -/

/-- The lockups that are imported are summed one by one; no sum on the way is larger than the last. -/
theorem forEach_initLockup_restores (codec : AddressCodec Γ) (hs : Named s) (hled : Ledger s)
    (hp : ∀ e ∈ s.lockups.entries, lockupPortable Γ e = true) (hempty : t.lockups = .empty) (hz : t.totalLockups = none) :
    ∃ total writes, (Eff.forEach (s.lockups.entries.map Prod.snd) initLockup).Succeeds t ()
        { t with lockups := s.lockups, totalLockups := total, writes := writes } ∧
      max 0 (total.getD 0) = s.getTotalLockupsAmount := by
  have hno : ∀ l : List (Bytes × Lockup), (∀ e ∈ l, e ∈ s.lockups.entries) → 0 ≤ (l.map fun e => e.2.amount).sum := by
    intro l hl
    refine sum_nonneg fun n hn => ?_
    obtain ⟨e, he, rfl⟩ := mem_map.1 hn
    exact (hled.positive e.1 e.2 (s.lockups.mem_entries.1 (hl e he))).le
  have hf : isInt64 s.lockupsSum = true := by
    cases ht : s.totalLockups with
    | none =>
      have hsu := hled.total
      rw [ht] at hsu
      rw [← hsu]
      rfl
    | some n =>
      have hsu := hled.total
      rw [ht] at hsu
      rw [← hsu]
      exact hs.total n ht
  have hlo := forEach_ok_of s.lockups.entries (fun e => (initLockup e.2 : M Γ Unit)) (s := t)
    (fun before t' => ∃ total writes,
      t' = { t with lockups := KVStore.empty.setAll before, totalLockups := total, writes := writes } ∧
      max 0 (total.getD 0) = (before.map fun e => e.2.amount).sum) ⟨none, t.writes, ?_, rfl⟩ ?_
  · obtain ⟨_, h, total, writes, rfl, hsu⟩ := hlo
    rw [setAll_entries] at h
    refine ⟨total, writes, by rwa [forEach_map], ?_⟩
    rw [hsu, hled.getTotalLockupsAmount_eq]
    rfl
  · rw [← hz]
    show t = { t with lockups := .empty }
    rw [← hempty]
  · rintro before e after hsp _ ⟨total, writes, rfl, hsu⟩
    have hmem : e ∈ s.lockups.entries := by simp [hsp]
    have hstored := s.lockups.mem_entries.1 hmem
    have hb := hno before fun e' he' => by simp [hsp, he']
    have ha := hno after fun e' he' => by simp [hsp, he']
    have hpo := hled.positive e.1 e.2 hstored
    have hal : s.lockupsSum = (before.map fun e => e.2.amount).sum + (e.2.amount + (after.map fun e => e.2.amount).sum) := by
      show (s.lockups.entries.map fun e => e.2.amount).sum = _
      rw [hsp]
      simp
    have hne : isInt64 (max 0 (total.getD 0) + e.2.amount) = true := by
      simp only [isInt64, Bool.and_eq_true, decide_eq_true_eq] at hf ⊢
      rw [hsu]
      omega
    obtain ⟨writes', h⟩ := initLockup_restores codec (hs.lockups e.1 e.2 hstored) (hp e hmem)
      (s := { t with lockups := KVStore.empty.setAll before, totalLockups := total, writes := writes })
      (get_setAll_of_entries hsp) hne
    refine ⟨_, h, _, writes', by rw [setAll_append_singleton], ?_⟩
    show max 0 (max 0 (total.getD 0) + e.2.amount) = _
    rw [hsu, map_append, sum_append]
    simp only [map_cons, map_nil, sum_cons, sum_nil]
    omega

/-- The store after the import: the records, the parameters and the total of the lockups, but neither the total of credits nor
the credits granted. -/
def State.reimported (s : State Γ) (totalLockups : Option Int) (writes : List RecordKey) : State Γ :=
  { emptyState Γ s.env with
    params := s.params
    lockups := s.lockups
    unlockings := s.unlockings
    insurance := s.insurance
    developers := s.developers
    subscriptions := s.subscriptions
    totalLockups := totalLockups
    writes := writes }

theorem initGenesis_genesisState (codec : AddressCodec Γ) (hs : Named s) (hled : Ledger s) (hp : s.Portable) :
    ∃ total writes, (initGenesis s.genesisState).Succeeds (emptyState Γ s.env) () (s.reimported total writes) ∧
      max 0 (total.getD 0) = s.getTotalLockupsAmount := by
  obtain ⟨total, w₁, h₁, ht⟩ := forEach_initLockup_restores codec hs hled hp.lockups
    (t := { emptyState Γ s.env with params := s.params }) rfl rfl
  obtain ⟨w₂, h₂⟩ := forEach_restores s.unlockings initUnlockingLockup (fun store writes => { emptyState Γ s.env with
      params := s.params, lockups := s.lockups, totalLockups := total, unlockings := store, writes := writes })
    (fun key u hu store writes hf => initUnlockingLockup_restores codec (hs.unlockings key u hu)
      (hp.unlockings _ (s.unlockings.mem_entries.2 hu)) hf) w₁
  obtain ⟨w₃, h₃⟩ := forEach_restores s.insurance initInsuranceLockup (fun store writes => { emptyState Γ s.env with
      params := s.params, lockups := s.lockups, totalLockups := total, unlockings := s.unlockings, insurance := store,
      writes := writes })
    (fun key l hl store writes hf => initInsuranceLockup_restores codec (hs.insurance key l hl)
      (hp.insurance _ (s.insurance.mem_entries.2 hl)) hf) w₂
  obtain ⟨w₄, h₄⟩ := forEach_restores s.developers initDeveloper (fun store writes => { emptyState Γ s.env with
      params := s.params, lockups := s.lockups, totalLockups := total, unlockings := s.unlockings, insurance := s.insurance,
      developers := store, writes := writes })
    (fun key d hd store writes _ => initDeveloper_restores codec (hs.developers key d hd)
      (hp.developers _ (s.developers.mem_entries.2 hd))) w₃
  obtain ⟨w₅, h₅⟩ := forEach_restores s.subscriptions initUserSubscription
    (fun store writes => { s.reimported total writes with subscriptions := store })
    (fun key sub hsu store writes _ => initUserSubscription_restores codec (hs.subscriptions key sub hsu)
      (hp.subscriptions _ (s.subscriptions.mem_entries.2 hsu))) w₄
  refine ⟨total, w₅, modify_bind_ok.2 (bind_ok.2 ⟨(), _, h₁, ?_⟩), ht⟩
  exact bind_ok.2 ⟨(), _, h₂, bind_ok.2 ⟨(), _, h₃, bind_ok.2 ⟨(), _, h₄, h₅⟩⟩⟩

theorem portable_of_initGenesis (hke : s.KeysRead) {e : State Γ}
    (h : (initGenesis s.genesisState).Succeeds e () t) : s.Portable := by
  have ha : ∀ {xs : List Lockup} {f : Bytes → Bytes → Lockup → M Γ Unit} {s₁ s₂ : State Γ} {l : Lockup},
      (Eff.forEach xs fun l => mustAccAddressFromBech32 l.delegatorAddress >>= fun d =>
        mustValAddressFromBech32 l.validatorAddress >>= fun v => f d v l).Succeeds s₁ () s₂ → l ∈ xs →
      (Γ.accAddressFromBech32 l.delegatorAddress).isOk = true ∧ (Γ.valAddressFromBech32 l.validatorAddress).isOk = true := by
    intro xs f s₁ s₂ l hloo hl
    obtain ⟨_, _, _, _, -, -, ht, -⟩ := forEach_ok_split hloo hl
    obtain ⟨d, v, hd, hv, -⟩ := mustAddresses_bind_ok.1 ht
    rw [hd, hv]
    exact ⟨rfl, rfl⟩
  unfold initGenesis at h
  obtain ⟨_, e₁, hlo, h⟩ := bind_ok.1 (modify_bind_ok.1 h)
  simp only [bind_ok] at h
  obtain ⟨_, e₂, hu, _, e₃, hin, _, e₄, hde, hs⟩ := h
  refine ⟨fun x hx => ?_, fun x hx => ?_, fun x hx => ?_, fun x hx => ?_, fun x hx => ?_⟩
  · obtain ⟨hd, hv⟩ := ha hlo (mem_map_of_mem hx)
    simp [lockupPortable, hke.lockups x hx, hd, hv]
  · obtain ⟨_, _, _, _, -, -, ht, -⟩ := forEach_ok_split hu (mem_map_of_mem hx)
    obtain ⟨d, v, hd, hv, -⟩ := mustAddresses_bind_ok.1 ht
    simp [unlockingPortable, hke.unlockings x hx, hd, hv, Except.isOk, Except.toBool]
  · obtain ⟨hd, hv⟩ := ha hin (mem_map_of_mem hx)
    simp [lockupPortable, hke.insurance x hx, hd, hv]
  · obtain ⟨_, _, _, _, -, -, ht, -⟩ := forEach_ok_split hde (mem_map_of_mem hx)
    obtain ⟨d, hd, -⟩ := mustAddress_bind_ok.1 ht
    simp [developerPortable, hke.developers x hx, hd, Except.isOk, Except.toBool]
  · obtain ⟨_, _, _, _, -, -, ht, -⟩ := forEach_ok_split hs (mem_map_of_mem hx)
    obtain ⟨d, hd, -⟩ := mustAddress_bind_ok.1 ht
    simp [subscriptionPortable, hke.subscriptions x hx, hd, Except.isOk, Except.toBool]

end Portable

/-! ## Stores that are alike -/

section Alike

variable {Γ : Env}

/-- The records of two stores are the same, and so are their totals. -/
structure Alike (s t : State Γ) : Prop where
  env : s.env = t.env
  params : s.params = t.params
  lockups : s.lockups = t.lockups
  unlockings : s.unlockings = t.unlockings
  insurance : s.insurance = t.insurance
  developers : s.developers = t.developers
  subscriptions : s.subscriptions = t.subscriptions
  totalLockups : s.getTotalLockupsAmount = t.getTotalLockupsAmount
  totalCredits : s.getTotalCreditAmount = t.getTotalCreditAmount
  totalDevGranted : ∀ d, s.getTotalDevGranted d = t.getTotalDevGranted d

theorem callEnv_agrees {α : Type} (w : Bytes → Error) (x : Eff Γ.σ Bytes α) : (callEnv w x).Agrees Alike := by
  intro s t h
  unfold callEnv
  rw [h.env]
  exact ⟨rfl, { h with env := rfl }⟩

theorem emit_agrees (e : Event) : (emit e : M Γ Unit).Agrees Alike := .modify fun _ _ h => ⟨h.env, h.params, h.lockups,
  h.unlockings, h.insurance, h.developers, h.subscriptions, h.totalLockups, h.totalCredits, h.totalDevGranted⟩

theorem requireActingDeveloper_agrees (ctx : Ctx) (d : Bytes) : (requireActingDeveloper ctx d : M Γ Bytes).Agrees Alike :=
  .query fun _ _ _ => rfl

theorem requireUserSubscription_agrees (d u : Bytes) : (requireUserSubscription d u : M Γ _).Agrees Alike := by
  refine .query fun s t h => ?_
  unfold State.getUserSubscription
  rw [h.subscriptions]

theorem grantPeriod_agrees (period : UInt64) : (grantPeriod period : M Γ Int).Agrees Alike := by
  refine .query fun s t h => ?_
  rw [h.params]

theorem setTotalDevGranted_agrees (d : Bytes) (total : Int) : (setTotalDevGranted d total : M Γ Unit).Agrees Alike := by
  unfold setTotalDevGranted
  split
  · rename_i hr
    refine .modify fun s t h => { h with totalDevGranted := fun d' => ?_ }
    have hs := getTotalDevGranted_withTotalGranted s d d' hr.1 hr.2
    have ht := getTotalDevGranted_withTotalGranted t d d' hr.1 hr.2
    exact hs.trans (by rw [h.totalDevGranted d', ← ht]; rfl)
  · exact .crash _

theorem updateDeveloperTotalGranted_agrees (d : Bytes) (delta : Int) (add : Bool) :
    (updateDeveloperTotalGranted d delta add : M Γ Unit).Agrees Alike := by
  refine .read_bind (fun s t h => by rw [h.totalDevGranted d]) fun s => .bind (.require _ _) fun _ => ?_
  exact .bind (setTotalDevGranted_agrees d _) fun _ => .ite (.pure ()) (.crash _)

theorem adjustTotalGranted_agrees (d : Bytes) (oldAmount amount : UInt64) :
    (adjustTotalGranted d oldAmount amount : M Γ Unit).Agrees Alike := by
  refine .ite (updateDeveloperTotalGranted_agrees _ _ _) (.ite (updateDeveloperTotalGranted_agrees _ _ _) (.pure ()))

theorem setUserSubscription_agrees (d u : Bytes) (sub : UserSubscription) :
    (setUserSubscription d u sub : M Γ Unit).Agrees Alike :=
  .modify fun _ _ h => { h with subscriptions := congrArg (KVStore.set · (userSubscriptionKey d u) sub) h.subscriptions }

theorem deleteUserSubscription_agrees (d u : Bytes) : (deleteUserSubscription d u : M Γ Unit).Agrees Alike :=
  .modify fun _ _ h => { h with subscriptions := congrArg (KVStore.delete · (userSubscriptionKey d u)) h.subscriptions }

theorem grantPeriodicDIDAllowance_agrees (ctx : Ctx) (d u : Bytes) (spendLimit period : Int) :
    (grantPeriodicDIDAllowance ctx d u spendLimit period : M Γ Unit).Agrees Alike := by
  refine .bind (callEnv_agrees _ _).attempt fun updated => ?_
  cases updated with
  | ok _ => exact .pure ()
  | error _ => exact callEnv_agrees _ _

theorem updateUserSubscription_agrees (ctx : Ctx) (d u : Bytes) (amount period : UInt64) :
    (updateUserSubscription ctx d u amount period : M Γ Unit).Agrees Alike := by
  refine .bind (requireActingDeveloper_agrees ctx d) fun acting => ?_
  refine .bind (requireUserSubscription_agrees acting u) fun sub => ?_
  refine .bind (adjustTotalGranted_agrees acting _ amount) fun _ => ?_
  refine .bind (setUserSubscription_agrees acting u _) fun _ => .bind (grantPeriod_agrees period) fun updatePeriod => ?_
  exact .bind (grantPeriodicDIDAllowance_agrees ctx acting u _ _).mapErr fun _ => emit_agrees _

end Alike

section RoundTrip

variable {Γ : ModuleEnv}

theorem removeUserSubscription_agrees (ctx : Ctx) (d u : Bytes) :
    (removeUserSubscription (Γ := Γ.toGrantEnv) ctx d u).Agrees Alike := by
  refine .bind (requireActingDeveloper_agrees ctx d) fun acting => ?_
  refine .bind (requireUserSubscription_agrees acting u) fun sub => ?_
  refine .bind (updateDeveloperTotalGranted_agrees acting _ false) fun _ => ?_
  refine .bind (deleteUserSubscription_agrees acting u) fun _ => ?_
  exact .bind (callEnv_agrees _ _).attempt fun _ => emit_agrees _

/-- Subscriptions are removed and changed in the same way in two stores: with the same outcome, and with stores that are alike
again. -/
structure SameCalls (s t : State Γ.toEnv) : Prop where
  remove : ∀ ctx d u, let call := removeUserSubscription (Γ := Γ.toGrantEnv) ctx d u
    (call s).1 = (call t).1 ∧ Alike (call s).2 (call t).2
  update : ∀ ctx d u amount period, let call := updateUserSubscription (Γ := Γ.toEnv) ctx d u amount period
    (call s).1 = (call t).1 ∧ Alike (call s).2 (call t).2

/-! ## Round trips -/

/-- The export of a store succeeds, and so does its import into an empty store, which gives back the records and the totals. -/
def RoundTrips (s : State Γ.toEnv) : Prop :=
  ∃ g t, exportGenesis.Succeeds s g s ∧ (initGenesis g).Succeeds (emptyState Γ.toEnv s.env) () t ∧ Alike s t ∧ SameCalls s t

end RoundTrip

/-! ## A local chain -/

/-- The local chain with two validators, on which fee grants do not expire. -/
def localModule : ModuleEnv := { localStaking twoValidators with expireDIDAllowance := fun _ _ _ => pure () }

theorem localModule_codec : AddressCodec localModule.toEnv := by
  have hp : ∀ a b, Chain.parseAddress a = .ok b → b = a := by
    intro a b h
    unfold Chain.parseAddress at h
    split at h
    · cases h
    · split at h
      · cases h
      · exact (Except.ok.inj h).symm
  exact ⟨hp, hp⟩

def subscriber : Bytes := str "did:key:user"

end Vera.Tier
