import Vera.Tier.Totals

/-!
# The stake of each delegator

`resetAllCredits` (`x/tier/keeper/credit.go`) sums what every delegator has locked and insured, over all validators, in a map
keyed by the text of the address. Here the sums are taken over the store itself, and the map is shown to hold them.
-/

namespace Vera.Tier

open List Outcome

section Stakes

variable {Γ : Env}

/-- The delegator that a lockup's key is read as. -/
def delegatorOf (key : Bytes) : Option Bytes :=
  match (lockupKeyToAddresses key : Outcome Error (Bytes × Bytes)) with
  | .ok (d, _) => some d
  | _ => none

def State.delegators (s : State Γ) : Finset Bytes := (s.lockups.entries.filterMap fun e => delegatorOf e.1).toFinset

def State.Readable (s : State Γ) : Prop := ∀ e ∈ s.lockups.entries, (delegatorOf e.1).isSome = true

/-- The amounts of a delegator's lockups, summed. -/
def State.lockedBy (s : State Γ) (delAddr : Bytes) : Int :=
  s.lockups.sumBy fun key l => if delegatorOf key = some delAddr then l.amount else 0

/-- The amounts of a delegator's insurance lockups, summed. -/
def State.insuredBy (s : State Γ) (delAddr : Bytes) : Int :=
  s.insurance.sumBy fun key l => if delegatorOf key = some delAddr then l.amount else 0

def State.insuredAt (s : State Γ) (key : Bytes) : Int := ((s.insurance.get key).map Lockup.amount).getD 0

/-- The amounts of a delegator's lockups with what is insured of each, summed. -/
def State.stakeOf (s : State Γ) (delAddr : Bytes) : Int :=
  s.lockups.sumBy fun key l => if delegatorOf key = some delAddr then l.amount + s.insuredAt key else 0

/-! ## Reading the store -/

variable {d : Bytes} {s : State Γ} {entries : List (Bytes × Lockup)} {lockups : List (Bytes × Bytes × Lockup)}

theorem delegatorOf_eq_some {key : Bytes} :
    delegatorOf key = some d ↔ ∃ v, (lockupKeyToAddresses key : Outcome Error (Bytes × Bytes)) = .ok (d, v) := by
  unfold delegatorOf
  cases h : (lockupKeyToAddresses key : Outcome Error (Bytes × Bytes)) with
  | ok a => simp [Prod.ext_iff]
  | err e => simp
  | panic m => simp

theorem mem_delegators : d ∈ s.delegators ↔ ∃ e ∈ s.lockups.entries, delegatorOf e.1 = some d := by
  unfold State.delegators
  rw [mem_toFinset, mem_filterMap]

theorem length_of_mem_delegators (h : d ∈ s.delegators) : d.length = 20 := by
  obtain ⟨e, -, hd⟩ := mem_delegators.1 h
  obtain ⟨v, hr⟩ := delegatorOf_eq_some.1 hd
  exact (lockupKeyToAddresses_eq_ok.1 hr).1

theorem stakeOf_of_notMem (h : d ∉ s.delegators) : s.stakeOf d = 0 := by
  refine sum_eq_zero fun x hx => ?_
  obtain ⟨e, he, rfl⟩ := mem_map.1 hx
  exact if_neg fun hd => h (mem_delegators.2 ⟨e, he, hd⟩)

theorem readLockups_eq_ok : readLockups entries = .ok lockups ↔
      List.Forall₂ (fun e l => lockupKeyToAddresses e.1 = (.ok (l.1, l.2.1) : Outcome Error _) ∧ l.2.2 = e.2)
        entries lockups := by
  induction entries generalizing lockups with
  | nil =>
    rw [forall₂_nil_left_iff, readLockups]
    constructor
    · intro h
      exact (Outcome.ok.inj h).symm
    · rintro rfl
      rfl
  | cons e rest ih =>
    rw [forall₂_cons_left_iff, readLockups]
    simp only [bind_eq_ok, pure_eq_ok, ih]
    constructor
    · rintro ⟨addrs, hr, others, hot, rfl⟩
      exact ⟨_, others, ⟨hr, rfl⟩, hot, rfl⟩
    · rintro ⟨⟨d, v, l⟩, others, ⟨hr, hl⟩, hot, rfl⟩
      dsimp only at hr hl
      exact ⟨(d, v), hr, others, hot, by rw [hl]⟩

theorem exists_readLockups (h : ∀ e ∈ entries, (delegatorOf e.1).isSome = true) :
    ∃ lockups, readLockups entries = .ok lockups := by
  induction entries with
  | nil => exact ⟨[], rfl⟩
  | cons e rest ih =>
    obtain ⟨others, hot⟩ := ih fun e he => h e (mem_cons_of_mem _ he)
    obtain ⟨d, hd⟩ := Option.isSome_iff_exists.1 (h e mem_cons_self)
    obtain ⟨v, hr⟩ := delegatorOf_eq_some.1 hd
    exact ⟨(d, v, e.2) :: others, readLockups_eq_ok.2 (.cons ⟨hr, rfl⟩ (readLockups_eq_ok.1 hot))⟩

theorem readable_of_readLockups
    (h : readLockups entries = .ok lockups) : ∀ e ∈ entries, (delegatorOf e.1).isSome = true := by
  have hr := readLockups_eq_ok.1 h
  clear h
  induction hr with
  | nil => simp
  | cons hh _ ih =>
    intro e he
    rcases mem_cons.1 he with rfl | he
    · rw [delegatorOf_eq_some.2 ⟨_, hh.1⟩]
      rfl
    · exact ih e he

theorem mem_delegators_of_read
    (h : readLockups s.lockups.entries = .ok lockups) : d ∈ s.delegators ↔ ∃ l ∈ lockups, l.1 = d := by
  rw [mem_delegators]
  have hr := readLockups_eq_ok.1 h
  clear h
  generalize s.lockups.entries = entries at hr ⊢
  induction hr with
  | nil => simp
  | cons hh _ ih =>
    have hd := delegatorOf_eq_some.2 ⟨_, hh.1⟩
    simp only [mem_cons, exists_eq_or_imp, hd, Option.some_inj, ih]

theorem stakeOf_of_read (h : readLockups s.lockups.entries = .ok lockups) (d : Bytes) : s.stakeOf d =
      (lockups.map fun l => if l.1 = d then l.2.2.amount + s.getInsuranceLockupAmount l.1 l.2.1 else 0).sum := by
  unfold State.stakeOf KVStore.sumBy
  have hr := readLockups_eq_ok.1 h
  clear h
  generalize s.lockups.entries = entries at hr ⊢
  induction hr with
  | nil => rfl
  | @cons e l _ _ hh _ ih =>
    rw [map_cons, map_cons, sum_cons, sum_cons, ih, hh.2]
    have hke := (lockupKeyToAddresses_eq_ok.1 hh.1).2.2
    have hd := delegatorOf_eq_some.2 ⟨_, hh.1⟩
    simp only [hd, Option.some_inj]
    unfold State.insuredAt State.getInsuranceLockupAmount State.getInsuranceLockup
    rw [← hke]

/-- In a ledger in order, the stake of a delegator is what they have locked and what they have insured. -/
theorem Ledger.stakeOf_eq (hs : Ledger s) (d : Bytes) : s.stakeOf d = s.lockedBy d + s.insuredBy d := by
  -- what is insured is insured under the key of a lockup, or is nothing
  have hin : s.insuredBy d =
      ∑ key ∈ (s.lockups.entries.map Prod.fst).toFinset, if delegatorOf key = some d then s.insuredAt key else 0 := by
    unfold State.insuredBy
    rw [KVStore.sumBy_eq_sum (s.lockups.entries.map Prod.fst).toFinset]
    · refine Finset.sum_congr rfl fun key _ => ?_
      unfold State.insuredAt
      cases s.insurance.get key with
      | none => simp
      | some l => rfl
    · intro key l hget hnot
      have hnone : s.lockups.get key = none := by
        rw [Option.eq_none_iff_forall_ne_some]
        intro lockup hl
        exact hnot (mem_toFinset.2 (mem_map.2 ⟨_, s.lockups.mem_entries.2 hl, rfl⟩))
      rw [hs.orphan key l hnone hget, ite_self]
  rw [hin, sum_toFinset _ s.lockups.nodup_keys, map_map]
  unfold State.stakeOf State.lockedBy KVStore.sumBy
  rw [← sum_map_add]
  refine congrArg List.sum (map_congr_left fun e _ => ?_)
  dsimp only [Function.comp_apply]
  split <;> simp

/-! ## The map of the amounts -/

namespace StakesAux

def amountAt (key : Bytes) (amounts : List (Bytes × Int)) : Int := (amounts.map fun e => if e.1 = key then e.2 else 0).sum

theorem amountAt_addToEntry (key k : Bytes) (amount : Int) (amounts : List (Bytes × Int)) :
    amountAt key (addToEntry k amount amounts) = amountAt key amounts + if k = key then amount else 0 := by
  induction amounts with
  | nil => simp [addToEntry, amountAt]
  | cons e rest ih =>
    unfold addToEntry
    split
    · rename_i hk
      subst hk
      simp only [amountAt, map_cons, sum_cons]
      split <;> omega
    · simp only [amountAt, map_cons, sum_cons] at ih ⊢
      omega

theorem keys_addToEntry (k : Bytes) (amount : Int) (amounts : List (Bytes × Int)) :
    (addToEntry k amount amounts).map Prod.fst =
      if k ∈ amounts.map Prod.fst then amounts.map Prod.fst else amounts.map Prod.fst ++ [k] := by
  induction amounts with
  | nil => rfl
  | cons e rest ih =>
    unfold addToEntry
    split
    · rename_i hk
      rw [if_pos (by simp [hk])]
      rfl
    · rename_i hk
      rw [map_cons, ih, map_cons]
      by_cases hmem : k ∈ rest.map Prod.fst
      · rw [if_pos hmem, if_pos (mem_cons_of_mem _ hmem)]
      · rw [if_neg hmem, if_neg (by simpa [Ne.symm hk] using hmem)]
        rfl

variable {amounts : List (Bytes × Int)}

theorem nodup_lockedAmounts (s : State Γ) (lockups : List (Bytes × Bytes × Lockup))
    (h : (amounts.map Prod.fst).Nodup) : ((lockedAmounts s lockups amounts).map Prod.fst).Nodup := by
  induction lockups generalizing amounts with
  | nil => exact h
  | cons l rest ih =>
    refine ih ?_
    rw [keys_addToEntry]
    split
    · exact h
    · rename_i hmem
      exact nodup_append.2 ⟨h, nodup_singleton _, fun a ha b hb heq =>
        hmem (mem_singleton.1 hb ▸ heq ▸ ha)⟩

theorem mem_keys_lockedAmounts (s : State Γ) (lockups : List (Bytes × Bytes × Lockup)) (amounts : List (Bytes × Int))
    (key : Bytes) : key ∈ (lockedAmounts s lockups amounts).map Prod.fst ↔
      key ∈ amounts.map Prod.fst ∨ ∃ l ∈ lockups, Γ.accAddressString l.1 = key := by
  induction lockups generalizing amounts with
  | nil => simp [lockedAmounts]
  | cons l rest ih =>
    rw [lockedAmounts, ih, keys_addToEntry]
    simp only [mem_cons, exists_eq_or_imp]
    split
    · rename_i hmem
      constructor
      · exact fun h => h.imp_right .inr
      · rintro (h | rfl | h)
        · exact .inl h
        · exact .inl hmem
        · exact .inr h
    · rw [mem_append, mem_singleton, or_assoc, eq_comm (a := key)]

theorem amountAt_lockedAmounts (s : State Γ) (lockups : List (Bytes × Bytes × Lockup)) (amounts : List (Bytes × Int))
    (key : Bytes) : amountAt key (lockedAmounts s lockups amounts) = amountAt key amounts + (lockups.map fun l =>
        if Γ.accAddressString l.1 = key then l.2.2.amount + s.getInsuranceLockupAmount l.1 l.2.1 else 0).sum := by
  induction lockups generalizing amounts with
  | nil => simp [lockedAmounts]
  | cons l rest ih =>
    rw [lockedAmounts, ih, amountAt_addToEntry, map_cons, sum_cons, add_assoc]

theorem amountAt_of_mem (h : (amounts.map Prod.fst).Nodup) {e : Bytes × Int}
    (he : e ∈ amounts) : amountAt e.1 amounts = e.2 := by
  induction amounts with
  | nil => exact absurd he not_mem_nil
  | cons a rest ih =>
    rw [map_cons, nodup_cons] at h
    have hs : ∀ key, amountAt key (a :: rest) = (if a.1 = key then a.2 else 0) + amountAt key rest := fun _ => rfl
    rcases mem_cons.1 he with rfl | he
    · rw [hs, if_pos rfl]
      have hz : amountAt e.1 rest = 0 := by
        refine sum_eq_zero fun x hx => ?_
        obtain ⟨b, hb, rfl⟩ := mem_map.1 hx
        exact if_neg fun heq => h.1 (mem_map.2 ⟨b, hb, heq⟩)
      omega
    · have hne : a.1 ≠ e.1 := by
        intro heq
        rw [heq] at h
        exact h.1 (mem_map_of_mem he)
      rw [hs, if_neg hne, ih h.2 he, zero_add]

end StakesAux

open StakesAux

/-- Addresses of twenty bytes have a text from which they are read again, and Go walks every entry of a map once. -/
structure TextLaws (Γ : Env) : Prop where
  address : ∀ a : Bytes, a.length = 20 → Γ.accAddressFromBech32 (Γ.accAddressString a) = .ok a
  rangeOrder : ∀ l, (Γ.rangeOrder l).Perm l

theorem TextLaws.injective (laws : TextLaws Γ) {a b : Bytes} (ha : a.length = 20) (hb : b.length = 20)
    (h : Γ.accAddressString a = Γ.accAddressString b) : a = b := by
  have hr := laws.address a ha
  rw [h, laws.address b hb] at hr
  exact (Except.ok.inj hr).symm

/-- The address that the text of an entry is read as. -/
def StakesAux.addressOf (Γ : Env) (e : Bytes × Int) : Bytes := (Γ.accAddressFromBech32 e.1).toOption.getD []

theorem TextLaws.addressOf_eq (laws : TextLaws Γ) {e : Bytes × Int} (hd : d.length = 20)
    (h : e.1 = Γ.accAddressString d) : addressOf Γ e = d := by
  unfold StakesAux.addressOf
  rw [h, laws.address d hd]
  rfl

/-- The loop of `resetAllCredits` goes over the delegators in some order, each with their stake. -/
theorem exists_order (laws : TextLaws Γ) (hr : readLockups s.lockups.entries = .ok lockups) :
    ∃ order : List Bytes, order.Nodup ∧ order.toFinset = s.delegators ∧
      Γ.rangeOrder (lockedAmounts s lockups []) = order.map fun d => (Γ.accAddressString d, s.stakeOf d) := by
  have hp := laws.rangeOrder (lockedAmounts s lockups [])
  have hke : ((lockedAmounts s lockups []).map Prod.fst).Nodup := nodup_lockedAmounts s lockups nodup_nil
  have hno : ((Γ.rangeOrder (lockedAmounts s lockups [])).map Prod.fst).Nodup := (hp.map _).nodup_iff.2 hke
  have hkey : ∀ key, key ∈ (Γ.rangeOrder (lockedAmounts s lockups [])).map Prod.fst ↔
      ∃ d ∈ s.delegators, Γ.accAddressString d = key := by
    intro key
    rw [(hp.map _).mem_iff, mem_keys_lockedAmounts]
    simp only [map_nil, not_mem_nil, false_or, mem_delegators_of_read hr]
    constructor
    · rintro ⟨l, hl, rfl⟩
      exact ⟨l.1, ⟨l, hl, rfl⟩, rfl⟩
    · rintro ⟨_, ⟨l, hl, rfl⟩, rfl⟩
      exact ⟨l, hl, rfl⟩
  have ha : ∀ d ∈ s.delegators, amountAt (Γ.accAddressString d) (lockedAmounts s lockups []) = s.stakeOf d := by
    intro d hd
    rw [amountAt_lockedAmounts, stakeOf_of_read hr]
    show 0 + _ = _
    rw [zero_add]
    refine congrArg List.sum (map_congr_left fun l hl => if_congr ?_ rfl rfl)
    have hl' := length_of_mem_delegators ((mem_delegators_of_read hr).2 ⟨l, hl, rfl⟩)
    exact ⟨laws.injective hl' (length_of_mem_delegators hd), fun h => h ▸ rfl⟩
  -- every entry is the text of a delegator with their stake
  have hen : ∀ e ∈ Γ.rangeOrder (lockedAmounts s lockups []),
      addressOf Γ e ∈ s.delegators ∧ (Γ.accAddressString (addressOf Γ e), s.stakeOf (addressOf Γ e)) = e := by
    intro e he
    obtain ⟨d, hd, ht⟩ := (hkey e.1).1 (mem_map_of_mem he)
    have hde : addressOf Γ e = d := laws.addressOf_eq (length_of_mem_delegators hd) ht.symm
    rw [hde]
    refine ⟨hd, Prod.ext ht ?_⟩
    show s.stakeOf d = e.2
    rw [← ha d hd, ht]
    exact amountAt_of_mem hke (hp.mem_iff.1 he)
  refine ⟨(Γ.rangeOrder (lockedAmounts s lockups [])).map (addressOf Γ), ?_, ?_, ?_⟩
  · refine List.Nodup.of_map Γ.accAddressString ?_
    rw [map_map]
    have hf : (Γ.rangeOrder (lockedAmounts s lockups [])).map (Γ.accAddressString ∘ addressOf Γ) =
        (Γ.rangeOrder (lockedAmounts s lockups [])).map Prod.fst :=
      map_congr_left fun e he => congrArg Prod.fst (hen e he).2
    rwa [hf]
  · ext d
    rw [mem_toFinset, mem_map]
    constructor
    · rintro ⟨e, he, rfl⟩
      exact (hen e he).1
    · intro hd
      obtain ⟨e, he, ht⟩ := mem_map.1 ((hkey _).2 ⟨d, hd, rfl⟩)
      exact ⟨e, he, laws.addressOf_eq (length_of_mem_delegators hd) ht⟩
  · rw [map_map]
    exact (map_id'' (fun e => rfl) _).symm.trans (map_congr_left fun e he => ((hen e he).2).symm)

end Stakes

end Vera.Tier
