import Mathlib.Algebra.BigOperators.Group.Finset.Piecewise
import Mathlib.Algebra.Order.BigOperators.Group.Finset
import Vera.Tier.Stakes

/-!
# Credits from one epoch to the next

At the start of an epoch the credits of the delegators are burned and given out anew (`x/tier/keeper/credit.go`). The burning
goes over the lockups, so it does not meet an account whose last lockup is gone; the giving out stops at the first delegator
whose stake is too small to earn one whole credit.
-/

namespace Vera.Tier

open Eff List
open Bytes (str)

section Credits

variable {Γ : Env}

def credits (Γ : Env) (env : Γ.σ) (a : Bytes) : Int := Γ.getBalance env a .ucredit

/-- What the bank does with credits, in states that are in order. -/
structure CreditLaws (Γ : Env) (Sound : Γ.σ → Prop) : Prop extends TextLaws Γ where
  nonneg : ∀ env a, Sound env → 0 ≤ credits Γ env a
  /-- An account's credits can be taken as a whole and burned. -/
  take : ∀ env a, Sound env → 0 < credits Γ env a → ∃ env',
    (Γ.sendCoinsFromAccountToModule a (credits Γ env a) >>= fun _ => Γ.burnCoins (credits Γ env a)).Succeeds env () env' ∧
      Sound env' ∧ ∀ b, credits Γ env' b = if b = a then 0 else credits Γ env b
  /-- Credits that were minted and sent are on the account. -/
  give : ∀ env env' a amount, Sound env → 0 < amount →
    (Γ.mintCoins amount >>= fun _ => Γ.sendCoinsFromModuleToAccount a amount).Succeeds env () env' →
      Sound env' ∧ ∀ b, credits Γ env' b = credits Γ env b + if b = a then amount else 0

def GivesSucceed (Γ : Env) (Sound : Γ.σ → Prop) : Prop :=
  ∀ env a amount, Sound env → 0 < amount → ∃ env',
    (Γ.mintCoins amount >>= fun _ => Γ.sendCoinsFromModuleToAccount a amount).Succeeds env () env'

/-- The credit that a delegator's stake earns in an epoch. -/
def State.creditOf (s : State Γ) (delAddr : Bytes) : Int := calculateCredit s.params.rewardRates 0 (s.stakeOf delAddr)

variable {s t : State Γ} {u : Unit} {rates : List Rate} {order : List Bytes} {stake : Bytes → Int} {total : Int}

theorem creditOf_of_notMem {d : Bytes} (h : d ∉ s.delegators) : s.creditOf d = 0 := by
  unfold State.creditOf
  rw [stakeOf_of_notMem h, calculateCredit_zero]

/-! ## Calls of the bank -/

theorem callEnv_seq_ok {w w' : Bytes → Error} {x y : Eff Γ.σ Bytes Unit} :
    (callEnv w x >>= fun _ => callEnv w' y : M Γ Unit).Succeeds s () t ↔
      ∃ env, (x >>= fun _ => y).Succeeds s.env () env ∧ t = { s with env := env } := by
  rw [callEnv_bind_ok]
  constructor
  · rintro ⟨_, env₁, hx, h⟩
    obtain ⟨env, hy, rfl⟩ := callEnv_ok.1 h
    exact ⟨env, bind_ok.2 ⟨_, env₁, hx, hy⟩, rfl⟩
  · rintro ⟨env, h, rfl⟩
    obtain ⟨_, env₁, hx, hy⟩ := bind_ok.1 h
    exact ⟨_, env₁, hx, callEnv_ok.2 ⟨env, hy, rfl⟩⟩

theorem mintCredit_ok_iff {a : Bytes} {amount : Int} (ha : Γ.accAddressFromBech32 (Γ.accAddressString a) = .ok a) :
    (mintCredit a amount).Succeeds s () t ↔ 0 < amount ∧ ∃ env,
      (Γ.mintCoins amount >>= fun _ => Γ.sendCoinsFromModuleToAccount a amount).Succeeds s.env () env ∧
        t = { s with env := env } := by
  unfold mintCredit
  rw [ha]
  show (Eff.require (0 < amount) _ >>= _ : M Γ Unit).Succeeds s () t ↔ _
  rw [require_bind_ok, callEnv_seq_ok]

/-! ## Burning -/

variable {Sound : Γ.σ → Prop}

/-- The iteration takes the credits of every delegator whose lockup it meets, and nobody else's. -/
theorem burnCredits_credits (laws : CreditLaws Γ Sound) {entries : List (Bytes × Lockup)} {err r : Option Error}
    (hs : Sound s.env) (h : (burnCredits entries err).Succeeds s r t) :
    t = { s with env := t.env } ∧ Sound t.env ∧ ∀ a, credits Γ t.env a =
        if a ∈ entries.filterMap (fun e => delegatorOf e.1) then 0 else credits Γ s.env a := by
  induction entries generalizing err s with
  | nil =>
    obtain ⟨-, rfl⟩ := pure_ok.1 h
    exact ⟨rfl, hs, by simp⟩
  | cons e rest ih =>
    unfold burnCredits at h
    obtain ⟨⟨d, v⟩, hr, h⟩ := lift_bind_ok.1 h
    rw [read_bind_ok] at h
    rw [filterMap_cons, delegatorOf_eq_some.2 ⟨v, hr⟩]
    dsimp only
    by_cases hz : Γ.getBalance s.env d .ucredit ≤ 0
    · rw [if_pos hz] at h
      obtain ⟨hf, hs', hcr⟩ := ih hs h
      refine ⟨hf, hs', fun a => ?_⟩
      have hnone : credits Γ s.env d = 0 := le_antisymm hz (laws.nonneg s.env d hs)
      simp only [hcr, mem_cons]
      by_cases had : a = d
      · subst had
        simp [hnone]
      · simp only [had, false_or]
    · rw [if_neg hz] at h
      obtain ⟨env, ht, hs₁, hcr₁⟩ := laws.take s.env d hs (not_le.1 hz)
      have hb : (burnCredit d (Γ.getBalance s.env d .ucredit) : M Γ Unit).Succeeds s () { s with env := env } :=
        callEnv_seq_ok.2 ⟨env, ht, rfl⟩
      unfold Eff.Succeeds at h
      rw [hb.attempt.bind_eq] at h
      obtain ⟨hf, hs', hcr⟩ := ih hs₁ h
      refine ⟨hf, hs', fun a => ?_⟩
      simp only [hcr, hcr₁, mem_cons]
      by_cases had : a = d
      · simp [had]
      · simp only [had, false_or, if_false]

theorem burnAllCredits_credits (laws : CreditLaws Γ Sound) (hso : Sound s.env) (h : burnAllCredits.Succeeds s u t) :
    t = { s with env := t.env, totalCredits := t.totalCredits } ∧ Sound t.env ∧
      ∀ a, credits Γ t.env a = if a ∈ s.delegators then 0 else credits Γ s.env a := by
  unfold burnAllCredits at h
  rw [read_bind_ok] at h
  obtain ⟨err, s₁, hb, h⟩ := bind_ok.1 h
  obtain ⟨_, s₂, hse, h⟩ := bind_ok.1 h
  obtain ⟨hf, hso₁, hcr⟩ := burnCredits_credits laws hso hb
  have hs₂ := setTotalCreditAmount_ok hse
  have ht : t = s₂ := by
    cases err with
    | none => exact (pure_ok.1 h).2
    | some e => exact absurd h fail_ok
  subst ht hs₂
  refine ⟨?_, hso₁, fun a => ?_⟩
  · rw [hf]
  · show credits Γ s₁.env a = _
    rw [hcr]
    exact if_congr mem_toFinset.symm rfl rfl

/-! ## Giving out -/

/-- The loop over some delegators gives each of them their credit, in whole amounts that are all positive. -/
theorem resetCredits_credits (laws : CreditLaws Γ Sound) (hor : ∀ d ∈ order, d.length = 20) {r : Int} (hs : Sound s.env)
    (h : (resetCredits rates (order.map fun d => (Γ.accAddressString d, stake d)) total).Succeeds s r t) :
    (∀ d ∈ order, 0 < calculateCredit rates 0 (stake d)) ∧
      r = total + (order.map fun d => calculateCredit rates 0 (stake d)).sum ∧ t = { s with env := t.env } ∧ Sound t.env ∧
      ∀ a, credits Γ t.env a =
        credits Γ s.env a + (order.map fun d => if d = a then calculateCredit rates 0 (stake d) else 0).sum := by
  induction order generalizing total s with
  | nil =>
    obtain ⟨rfl, rfl⟩ := pure_ok.1 h
    simp [hs]
  | cons d rest ih =>
    have ha := laws.address d (hor d mem_cons_self)
    rw [map_cons, resetCredits, ha] at h
    obtain ⟨_, s₁, hm, h⟩ := bind_ok.1 h
    obtain ⟨hp, env, hg, rfl⟩ := (mintCredit_ok_iff ha).1 (mapErr_ok.1 hm)
    obtain ⟨hs₁, hcr₁⟩ := laws.give _ _ _ _ hs hp hg
    obtain ⟨hal, hr, hf, hs', hcr⟩ := ih (fun d hd => hor d (mem_cons_of_mem _ hd)) hs₁ h
    refine ⟨forall_mem_cons.2 ⟨hp, hal⟩, ?_, hf, hs', fun a => ?_⟩
    · rw [hr, map_cons, sum_cons, add_assoc]
    · rw [hcr]
      show credits Γ env a + _ = _
      rw [hcr₁, map_cons, sum_cons, add_assoc]
      simp only [eq_comm (a := a)]

theorem resetCredits_complete (laws : CreditLaws Γ Sound) (hgi : GivesSucceed Γ Sound) (hor : ∀ d ∈ order, d.length = 20)
    (hp : ∀ d ∈ order, 0 < calculateCredit rates 0 (stake d)) (total : Int) (hs : Sound s.env) :
    ∃ r t, (resetCredits rates (order.map fun d => (Γ.accAddressString d, stake d)) total).Succeeds s r t := by
  induction order generalizing total s with
  | nil => exact ⟨total, s, rfl⟩
  | cons d rest ih =>
    have ha := laws.address d (hor d mem_cons_self)
    have hd := hp d mem_cons_self
    obtain ⟨env, hg⟩ := hgi s.env d _ hs hd
    have hs₁ := (laws.give _ _ _ _ hs hd hg).1
    obtain ⟨r, t, hrest⟩ := ih (fun d hd => hor d (mem_cons_of_mem _ hd))
      (fun d hd => hp d (mem_cons_of_mem _ hd)) (total + calculateCredit rates 0 (stake d)) (s := { s with env := env })
      hs₁
    refine ⟨r, t, ?_⟩
    rw [map_cons, resetCredits, ha]
    exact bind_ok.2 ⟨(), { s with env := env }, mapErr_ok.2 ((mintCredit_ok_iff ha).2 ⟨hd, env, hg, rfl⟩), hrest⟩

theorem sum_order (hno : order.Nodup) (hor : order.toFinset = s.delegators)
    (f : Bytes → Int) : (order.map f).sum = ∑ d ∈ s.delegators, f d := by
  rw [← hor, sum_toFinset _ hno]

/-- What giving out does when it succeeds: every delegator's credit is positive and is on their account, and their sum,
which has 64 bits, is the total. -/
theorem resetAllCredits_credits (laws : CreditLaws Γ Sound) (hs : Sound s.env) (h : resetAllCredits.Succeeds s u t) :
    s.Readable ∧ (∀ d ∈ s.delegators, 0 < s.creditOf d) ∧ ∑ d ∈ s.delegators, s.creditOf d < 2 ^ 63 ∧
      t = { s with env := t.env, totalCredits := some (∑ d ∈ s.delegators, s.creditOf d) } ∧
      ∀ a, credits Γ t.env a = credits Γ s.env a + s.creditOf a := by
  unfold resetAllCredits iterateLockups at h
  obtain ⟨lockups, hr, h⟩ := query_bind_ok.1 h
  rw [read_bind_ok] at h
  obtain ⟨order, hno, hor, hra⟩ := exists_order laws.toTextLaws hr
  have hlength : ∀ d ∈ order, d.length = 20 := fun d hd =>
    length_of_mem_delegators (hor ▸ mem_toFinset.2 hd)
  rw [hra] at h
  obtain ⟨total, s₁, hre, h⟩ := bind_ok.1 h
  obtain ⟨hp, hto, hfr, hs₁, hcr⟩ := resetCredits_credits laws hlength hs hre
  rw [sum_order hno hor, zero_add] at hto
  have hse := mapErr_ok.1 h
  have hf := setTotalCreditAmount_fits hse
  have ht := setTotalCreditAmount_ok hse
  subst ht
  have hp' : ∀ d ∈ s.delegators, 0 < s.creditOf d := fun d hd => hp d (mem_toFinset.1 (hor ▸ hd))
  refine ⟨readable_of_readLockups hr, hp', ?_, ?_, fun a => ?_⟩
  · rw [hto] at hf
    exact hf
  · rw [hfr, hto]
    rfl
  · show credits Γ s₁.env a = _
    rw [hcr, sum_order hno hor, Finset.sum_ite_eq' s.delegators a]
    split
    · rfl
    · rename_i ha
      rw [creditOf_of_notMem ha]

theorem setTotalCreditAmount_complete (h : total < 2 ^ 63) (s : State Γ) :
    (setTotalCreditAmount total).Succeeds s () { s with totalCredits := some total } := by
  unfold setTotalCreditAmount
  rw [modify_bind_ok, if_neg]
  · exact pure_ok.2 ⟨rfl, rfl⟩
  · simp only [isInt64, not_and, Bool.not_eq_false, Bool.and_eq_true, decide_eq_true_eq]
    omega

/-- Giving out succeeds if every lockup can be read, every delegator earns something and the sum has 64 bits. -/
theorem resetAllCredits_complete (laws : CreditLaws Γ Sound) (hg : GivesSucceed Γ Sound)
    (hs : Sound s.env) (hr : s.Readable) (hp : ∀ d ∈ s.delegators, 0 < s.creditOf d)
    (hf : ∑ d ∈ s.delegators, s.creditOf d < 2 ^ 63) : ∃ t, (resetAllCredits : M Γ Unit).Succeeds s () t := by
  obtain ⟨lockups, hrea⟩ := exists_readLockups hr
  obtain ⟨order, hno, hor, hra⟩ := exists_order laws.toTextLaws hrea
  have hmem : ∀ d ∈ order, d ∈ s.delegators := fun d hd => hor ▸ mem_toFinset.2 hd
  have hlength := fun d hd => length_of_mem_delegators (hmem d hd)
  have hl : ∃ total s₁, (resetCredits s.params.rewardRates
      (order.map fun d => (Γ.accAddressString d, s.stakeOf d)) 0).Succeeds s total s₁ :=
    resetCredits_complete laws hg hlength (fun d hd => hp d (hmem d hd)) 0 hs
  obtain ⟨total, s₁, hre⟩ := hl
  have ht := (resetCredits_credits laws hlength hs hre).2.1
  rw [sum_order hno hor, zero_add] at ht
  subst ht
  have hse := setTotalCreditAmount_complete hf s₁
  refine ⟨{ s₁ with totalCredits := some (∑ d ∈ s.delegators, s.creditOf d) }, ?_⟩
  unfold resetAllCredits iterateLockups
  refine query_bind_ok.2 ⟨lockups, hrea, ?_⟩
  rw [read_bind_ok, hra]
  exact bind_ok.2 ⟨_, s₁, hre, mapErr_ok.2 hse⟩

/-! ## The reset of an epoch -/

/-- The credits are given out: `resetAllCredits` returns no error, and every delegator has what their stake earns on top of
what they had. -/
def CreditsGiven (s : State Γ) : Prop :=
  ∃ t, (resetAllCredits : M Γ Unit).Succeeds s () t ∧
    ∀ d ∈ s.delegators, credits Γ t.env d = credits Γ s.env d + s.creditOf d

/-- The credits are given out exactly when every lockup can be read, every delegator's stake earns at least one credit, and
the sum of what they earn has 64 bits. -/
theorem creditsGiven_iff (laws : CreditLaws Γ Sound) (hgives : GivesSucceed Γ Sound) {s : State Γ} (hsound : Sound s.env) :
    CreditsGiven s ↔ s.Readable ∧ (∀ d ∈ s.delegators, 0 < s.creditOf d) ∧ ∑ d ∈ s.delegators, s.creditOf d < 2 ^ 63 := by
  constructor
  · rintro ⟨t, h, -⟩
    obtain ⟨hr, hp, hf, -⟩ := resetAllCredits_credits laws hsound h
    exact ⟨hr, hp, hf⟩
  · rintro ⟨hr, hp, hf⟩
    obtain ⟨t, h⟩ := resetAllCredits_complete laws hgives hsound hr hp hf
    exact ⟨t, h, fun d _ => (resetAllCredits_credits laws hsound h).2.2.2.2 d⟩

/-- Every account has the credits of its stake and no others, and the stored total is their sum. -/
structure CreditsReset (s : State Γ) : Prop where
  balance : ∀ a, credits Γ s.env a = calculateCredit s.params.rewardRates 0 (s.lockedBy a + s.insuredBy a)
  none : ∀ a, a ∉ s.delegators → credits Γ s.env a = 0
  total : ∀ accounts : Finset Bytes, (∀ a, credits Γ s.env a ≠ 0 → a ∈ accounts) →
    s.getTotalCreditAmount = ∑ a ∈ accounts, credits Γ s.env a

/-- After a burning and a giving out that both succeed, the delegators have the credits of their stake and the others what
they had. -/
theorem credits_after_reset (laws : CreditLaws Γ Sound) {s₁ : State Γ} (hs : Sound s.env)
    (hb : burnAllCredits.Succeeds s () s₁) (hr : resetAllCredits.Succeeds s₁ () t) :
    t = { s with env := t.env, totalCredits := some (∑ d ∈ s.delegators, s.creditOf d) } ∧
      (∀ d ∈ s.delegators, 0 < s.creditOf d) ∧
      ∀ a, credits Γ t.env a = if a ∈ s.delegators then s.creditOf a else credits Γ s.env a := by
  obtain ⟨hf₁, hs₁, hcre₁⟩ := burnAllCredits_credits laws hs hb
  have hd : s₁.delegators = s.delegators := by rw [hf₁]; rfl
  have hcr : s₁.creditOf = s.creditOf := by rw [hf₁]; rfl
  obtain ⟨-, hp, -, hf, hcre⟩ := resetAllCredits_credits laws hs₁ hr
  rw [hd, hcr] at hf
  rw [hd, hcr] at hp
  refine ⟨?_, hp, fun a => ?_⟩
  · rw [hf, hf₁]
  · rw [hcre, hcre₁, hcr]
    split
    · rw [zero_add]
    · rename_i ha
      rw [creditOf_of_notMem ha, add_zero]

end Credits

/-- In every state that a run reaches, a burning and a giving out that both succeed leave every account with exactly the
credits of its stake, if and only if nobody without a lockup had credits before. -/
theorem creditsReset_iff {Γ : StakingEnv} {Sound : Γ.σ → Prop} (laws : CreditLaws Γ.toEnv Sound) {s₀ : State Γ.toEnv}
    (hs₀ : s₀.NoLockups) (steps : List (TierStep Γ)) (hrates : Run.AllSteps tierStep RatesInUnit s₀ steps)
    {s₁ t : State Γ.toEnv} (hsound : Sound (Run.run tierStep s₀ steps).env)
    (hburn : burnAllCredits.Succeeds (Run.run tierStep s₀ steps) () s₁) (hreset : resetAllCredits.Succeeds s₁ () t) :
    CreditsReset t ↔
      ∀ a, a ∉ (Run.run tierStep s₀ steps).delegators → credits Γ.toEnv (Run.run tierStep s₀ steps).env a = 0 := by
  have hl := run_ledger hs₀ steps hrates
  generalize Run.run tierStep s₀ steps = s at hl hsound hburn ⊢
  obtain ⟨hf, hp, hcr⟩ := credits_after_reset laws hsound hburn hreset
  have hde : t.delegators = s.delegators := by rw [hf]; rfl
  have hst : ∀ a, calculateCredit t.params.rewardRates 0 (t.lockedBy a + t.insuredBy a) = s.creditOf a := by
    intro a
    unfold State.creditOf
    rw [hl.stakeOf_eq, hf]
    rfl
  constructor
  · intro hreset a ha
    have hnone := hreset.none a (hde ▸ ha)
    rwa [hcr, if_neg ha] at hnone
  · intro hnone
    have hb : ∀ a, credits Γ.toEnv t.env a = s.creditOf a := by
      intro a
      rw [hcr]
      split
      · rfl
      · rename_i ha
        rw [hnone a ha, creditOf_of_notMem ha]
    refine ⟨fun a => (hb a).trans (hst a).symm, fun a ha => ?_, fun accounts hal => ?_⟩
    · rw [hb, creditOf_of_notMem (hde ▸ ha)]
    · have ht : t.getTotalCreditAmount = ∑ d ∈ s.delegators, s.creditOf d := by
        unfold State.getTotalCreditAmount
        rw [hf]
        exact max_eq_right (Finset.sum_nonneg fun d hd => (hp d hd).le)
      rw [ht]
      simp only [hb] at hal ⊢
      refine Finset.sum_subset (fun d hd => hal d (hp d hd).ne') fun a _ ha => creditOf_of_notMem ha

/-! ## The local chain -/

/-- No account of the local chain has a negative amount of credits. -/
def Chain.CreditsSound (c : Chain) : Prop := ∀ a, 0 ≤ c.ucredit a

namespace CreditResetAux

variable {c : Chain}

variable {a : Bytes} {amount : Int}

theorem sendCredit_of_le {b : Bytes} (h : amount ≤ c.ucredit a) :
    (Chain.sendCredit a b amount).Succeeds c () { c with ucredit := Chain.move c.ucredit a b amount } := by
  unfold Chain.sendCredit
  rw [read_bind_ok, require_bind_ok, modify_ok]
  exact ⟨h, rfl⟩

theorem takeCredits (c : Chain) (a : Bytes) :
    (Chain.sendCredit a Chain.tierAccount (c.ucredit a) >>= fun _ => Chain.addCredit (-c.ucredit a)).Succeeds c ()
      { c with ucredit := Function.update c.ucredit a 0 } := by
  refine bind_ok.2 ⟨(), _, sendCredit_of_le (le_refl _), ?_⟩
  have hm : Function.update (Chain.move c.ucredit a Chain.tierAccount (c.ucredit a)) Chain.tierAccount
      (Chain.move c.ucredit a Chain.tierAccount (c.ucredit a) Chain.tierAccount + -c.ucredit a) =
      Function.update c.ucredit a 0 := by
    funext b
    unfold Chain.move
    by_cases hb : b = Chain.tierAccount
    · subst hb
      by_cases ha : Chain.tierAccount = a
      · simp [← ha]
      · simp [Function.update_of_ne ha]
    · by_cases ha : b = a
      · subst ha
        simp [Function.update_of_ne hb]
      · simp [Function.update_of_ne hb, Function.update_of_ne ha]
  rw [← hm]
  rfl

theorem giveCredits (hc : c.CreditsSound) (a : Bytes) (amount : Int) :
    (Chain.addCredit amount >>= fun _ => Chain.sendCredit Chain.tierAccount a amount).Succeeds c ()
      { c with ucredit := Function.update c.ucredit a (c.ucredit a + amount) } := by
  have hen : amount ≤ Function.update c.ucredit Chain.tierAccount (c.ucredit Chain.tierAccount + amount)
      Chain.tierAccount := by
    rw [Function.update_self]
    have hno := hc Chain.tierAccount
    omega
  have hm : Chain.move (Function.update c.ucredit Chain.tierAccount (c.ucredit Chain.tierAccount + amount))
      Chain.tierAccount a amount = Function.update c.ucredit a (c.ucredit a + amount) := by
    funext b
    unfold Chain.move
    by_cases hb : b = a
    · subst hb
      by_cases ht : b = Chain.tierAccount
      · simp [← ht]
      · simp [Function.update_of_ne ht]
    · simp [Function.update_of_ne hb]
  rw [← hm]
  exact modify_bind_ok.2 (sendCredit_of_le hen)

theorem update_sound (hc : c.CreditsSound) (h : 0 ≤ amount) :
    Chain.CreditsSound { c with ucredit := Function.update c.ucredit a amount } := by
  intro b
  show 0 ≤ Function.update c.ucredit a amount b
  rw [Function.update_apply]
  split
  · exact h
  · exact hc b

end CreditResetAux

open CreditResetAux

theorem localStaking_credits (validators : List LocalValidator) :
    CreditLaws (localStaking validators).toEnv Chain.CreditsSound where
  address a ha := by
    show Chain.parseAddress a = .ok a
    unfold Chain.parseAddress
    rw [if_neg (by rintro rfl; nomatch ha), if_neg (by omega)]
  rangeOrder _ := .refl _
  nonneg (c : Chain) a hc := hc a
  take (c : Chain) a hc _ := by
    refine ⟨_, takeCredits c a, update_sound hc (le_refl 0), fun b => ?_⟩
    exact Function.update_apply c.ucredit a 0 b
  give (c : Chain) c' a amount hc ham h := by
    have hc' : c' = { c with ucredit := Function.update c.ucredit a (c.ucredit a + amount) } := by
      have hg := giveCredits hc a amount
      exact (congrArg Prod.snd (h.symm.trans hg))
    subst hc'
    refine ⟨update_sound hc (by have hno := hc a; omega), fun b => ?_⟩
    show Function.update c.ucredit a (c.ucredit a + amount) b = c.ucredit b + _
    rw [Function.update_apply]
    split
    · rename_i hb
      rw [hb]
    · rw [add_zero]

theorem localStaking_gives (validators : List LocalValidator) :
    GivesSucceed (localStaking validators).toEnv Chain.CreditsSound := fun _ a amount hc _ => ⟨_, giveCredits hc a amount⟩

/-! ### Two delegators and a reward of ten per cent -/

def bob : Bytes := str "another delegator..."

/-- Parameters with one rate, of ten per cent. -/
def tenPercent : Params := { defaultParams with rewardRates := [⟨0, 10⟩] }

/-- The local chain with one validator and two delegators, at ten per cent. -/
def tenPercentChain : State (localStaking [⟨operator, 1000, Dec.ofInt 1000⟩]).toEnv :=
  { emptyState _ { oneDelegator with uopen := Function.update oneDelegator.uopen bob 1000 } with params := tenPercent }

/-- After a lock of 100 and one of 1000, the credits are given out. -/
theorem creditsGiven_iff_locked : CreditsGiven (Run.run tierStep tenPercentChain
      [.lock (midEpoch 5) alice operator 100, .lock (midEpoch 5) bob operator 1000, .others oneDelegator]) :=
  (creditsGiven_iff (localStaking_credits _) (localStaking_gives _) (fun _ => le_refl (0 : Int))).2
    ⟨show ∀ e ∈ _, _ by decide +kernel, by decide +kernel, by decide +kernel⟩

/-- The parameters are valid. When 95 of the 100 are unlocked again, the rest of 5 earns no whole credit, and nobody is given
any: not the other delegator either, who would earn 100. -/
theorem creditsGiven_false :
    let s := Run.run tierStep tenPercentChain
      [.lock (midEpoch 5) alice operator 100, .lock (midEpoch 5) bob operator 1000, .unlock (midEpoch 6) alice operator 95]
    tenPercent.validate defaultPoolParams = .ok () ∧ s.creditOf alice = 0 ∧ s.creditOf bob = 100 ∧
      (resetAllCredits s).1 = .err ⟨.plain, str "mint 0 ucredit to delegator address 20: invalid amount"⟩ ∧
      ¬ CreditsGiven s := by
  intro s
  have her : (resetAllCredits s).1 = .err ⟨.plain, str "mint 0 ucredit to delegator address 20: invalid amount"⟩ := by
    decide +kernel
  refine ⟨rfl, by decide +kernel, by decide +kernel, her, ?_⟩
  rintro ⟨t, h, -⟩
  have hok := congrArg Prod.fst h
  rw [her] at hok
  cases hok

/-! ### An account without a lockup -/

/-- The local chain with one validator and one delegator. -/
def oneStaker : State (localStaking [⟨operator, 1000, Dec.ofInt 1000⟩]).toEnv := emptyState _ oneDelegator

/-- The chain when the delegator has spent all credits but seven. -/
def sevenLeft : Chain := { oneDelegator with ucredit := Function.update (fun _ => 0) alice 7 }

/-- A delegator with a lockup of 100 and seven credits left: the seven are burned and a hundred given out. -/
theorem creditsReset_iff_locked :
    let s := Run.run tierStep oneStaker [.lock (midEpoch 5) alice operator 100, .others sevenLeft]
    let t := (resetAllCredits (burnAllCredits s).2).2
    CreditsReset t ∧ credits _ s.env alice = 7 ∧ credits _ t.env alice = 100 := by
  intro s t
  have hs : Chain.CreditsSound sevenLeft :=
    update_sound (c := oneDelegator) (a := alice) (fun _ => le_refl (0 : Int)) (by decide : (0 : Int) ≤ 7)
  refine ⟨?_, by decide +kernel, by decide +kernel⟩
  have hempty : oneStaker.NoLockups := ⟨rfl, rfl, rfl⟩
  refine (creditsReset_iff (localStaking_credits _) hempty [.lock (midEpoch 5) alice operator 100, .others sevenLeft]
    ⟨trivial, trivial, trivial⟩ hs (ok_unit_of_isOk (by decide +kernel))
    (ok_unit_of_isOk (by decide +kernel))).2 fun a ha => ?_
  show Function.update (fun _ => (0 : Int)) alice 7 a = 0
  refine Function.update_of_ne (fun heq => ha ?_) _ _
  subst heq
  decide +kernel

/-- A delegator who has unlocked everything keeps their credits: there are 50 on the account without a lockup, none of which
the total counts. -/
theorem creditsReset_false :
    let s := Run.run tierStep oneStaker [.lock (midEpoch 5) alice operator 100, .unlock (midEpoch 6) alice operator 100]
    let s₁ := (burnAllCredits s).2
    let t := (resetAllCredits s₁).2
    burnAllCredits.Succeeds s () s₁ ∧ resetAllCredits.Succeeds s₁ () t ∧ alice ∉ t.delegators ∧
      credits _ t.env alice = 50 ∧ t.getTotalCreditAmount = 0 ∧ ¬ CreditsReset t := by
  intro s s₁ t
  have hnot : alice ∉ t.delegators := by decide +kernel
  have hl : credits _ t.env alice = 50 := by decide +kernel
  refine ⟨ok_unit_of_isOk (by decide +kernel), ok_unit_of_isOk (by decide +kernel), hnot, hl,
    by decide +kernel, fun h => ?_⟩
  have hnone := h.none alice hnot
  rw [hl] at hnone
  cases hnone

end Vera.Tier
