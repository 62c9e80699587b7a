import Mathlib.Logic.Basic

/-! # Stateful code with errors and panics

A Go function that works on a store returns a value, returns an error or panics, and in every case leaves the store as it
is at that point: an error that the caller swallows keeps what was written before it. Only a transaction, or a cached
context, throws the writes away. -/

/-- How a call ends. -/
inductive Outcome (ε α : Type) where
  | ok (a : α)
  | err (e : ε)
  | panic (msg : String)
  deriving Repr, DecidableEq

namespace Outcome

variable {ε α β : Type}

instance : Monad (Outcome ε) where
  pure := .ok
  bind x f :=
    match x with
    | .ok a => f a
    | .err e => .err e
    | .panic m => .panic m

variable {x : Outcome ε α} {f : α → Outcome ε β} {a : α} {δ : Type}

/-- A sequence succeeds when both calls do. -/
theorem bind_eq_ok {b : β} : x >>= f = .ok b ↔ ∃ a, x = .ok a ∧ f a = .ok b := by
  cases x with
  | ok a => exact ⟨fun h => ⟨a, rfl, h⟩, fun ⟨_, ha, h⟩ => Outcome.ok.inj ha ▸ h⟩
  | err e => exact ⟨(nomatch ·), fun ⟨_, ha, _⟩ => nomatch ha⟩
  | panic m => exact ⟨(nomatch ·), fun ⟨_, ha, _⟩ => nomatch ha⟩

theorem ok_bind (a : α) (f : α → Outcome ε β) : Outcome.ok a >>= f = f a := rfl

/-- A sequence fails with the error of the first call, or of the second. -/
theorem bind_eq_err {e : ε} (h : x >>= f = .err e) : x = .err e ∨ ∃ a, x = .ok a ∧ f a = .err e := by
  cases x with
  | ok a => exact .inr ⟨a, rfl, h⟩
  | err e' => exact .inl (Outcome.err.inj h ▸ rfl)
  | panic m => cases h

theorem pure_eq_ok {b : α} : (pure a : Outcome ε α) = .ok b ↔ a = b := by
  show Outcome.ok a = .ok b ↔ a = b
  rw [Outcome.ok.injEq]

/-- Go on if a condition holds, return an error otherwise. -/
def require (c : Prop) [Decidable c] (e : ε) : Outcome ε Unit := if c then .ok () else .err e

theorem require_eq_ok {c : Prop} [Decidable c] {e : ε} {u : Unit} : require c e = .ok u ↔ c := by
  unfold require
  split
  · rename_i h
    simp [h]
  · rename_i h
    simp [h]

/-- The result of a library call, with its error wrapped. -/
def ofExcept {δ : Type} (wrap : δ → ε) : Except δ α → Outcome ε α
  | .ok a => .ok a
  | .error e => .err (wrap e)

theorem ofExcept_eq_ok {wrap : δ → ε} {x : Except δ α} : ofExcept wrap x = .ok a ↔ x = .ok a := by
  cases x with
  | ok b => simp [ofExcept]
  | error e => simp [ofExcept]

/-- A value that may be missing, which is an error. -/
def ofOption (e : ε) : Option α → Outcome ε α
  | some a => .ok a
  | none => .err e

theorem ofOption_eq_ok {e : ε} {x : Option α} : ofOption e x = .ok a ↔ x = some a := by
  cases x with
  | some b => simp [ofOption]
  | none => simp [ofOption]

/-- The call with its error changed. -/
def mapErr {δ : Type} (f : ε → δ) : Outcome ε α → Outcome δ α
  | .ok a => .ok a
  | .err e => .err (f e)
  | .panic m => .panic m

theorem mapErr_eq_ok {f : ε → δ} : x.mapErr f = .ok a ↔ x = .ok a := by
  cases x with
  | ok b => simp [mapErr]
  | err e => simp [mapErr]
  | panic m => simp [mapErr]

/-- Whether the call returns without an error. -/
def isOk : Outcome ε α → Bool
  | .ok _ => true
  | _ => false

theorem isOk_iff : x.isOk = true ↔ ∃ a, x = .ok a := by
  cases x with
  | ok a => simp [isOk]
  | err e => simp [isOk]
  | panic m => simp [isOk]

end Outcome

/-- A call on a state `σ`: how it ends and the state it leaves. -/
def Eff (σ ε α : Type) : Type := σ → Outcome ε α × σ

namespace Eff

variable {σ ε α β : Type}

/-- Sequencing: an error or a panic ends the call, with the writes made so far. -/
def andThen (x : Eff σ ε α) (f : α → Eff σ ε β) : Eff σ ε β := fun s =>
  match x s with
  | (.ok a, s') => f a s'
  | (.err e, s') => (.err e, s')
  | (.panic m, s') => (.panic m, s')

instance : Monad (Eff σ ε) where
  pure a := fun s => (.ok a, s)
  bind := andThen

/-- Return an error. -/
def fail (e : ε) : Eff σ ε α := fun s => (.err e, s)

/-- Panic. -/
def crash (msg : String) : Eff σ ε α := fun s => (.panic msg, s)

/-- Read the state. -/
def read : Eff σ ε σ := fun s => (.ok s, s)

/-- Write the state. -/
def modify (f : σ → σ) : Eff σ ε Unit := fun s => (.ok (), f s)

/-- A call that does not touch the state. -/
def lift (x : Outcome ε α) : Eff σ ε α := fun s => (x, s)

/-- A call that only looks at the state. -/
def query (f : σ → Outcome ε α) : Eff σ ε α := fun s => (f s, s)

/-- Go on if a condition holds, return an error otherwise. -/
def require (c : Prop) [Decidable c] (e : ε) : Eff σ ε Unit := if c then pure () else fail e

/-- The error of a call as a value, for a caller that handles it; a panic is not caught. -/
def attempt (x : Eff σ ε α) : Eff σ ε (Except ε α) := fun s =>
  match x s with
  | (.ok a, s') => (.ok (.ok a), s')
  | (.err e, s') => (.ok (.error e), s')
  | (.panic m, s') => (.panic m, s')

/-- The call with its error changed. -/
def mapErr {δ : Type} (f : ε → δ) (x : Eff σ ε α) : Eff σ δ α := fun s => ((x s).1.mapErr f, (x s).2)

/-- A call whose errors are panics. -/
def must (x : Eff σ ε α) : Eff σ ε α := fun s =>
  match x s with
  | (.ok a, s') => (.ok a, s')
  | (.err _, s') => (.panic "unexpected error", s')
  | (.panic m, s') => (.panic m, s')

/-- A call on the second of two states that are kept side by side. -/
def onSnd {τ : Type} (x : Eff τ ε α) : Eff (σ × τ) ε α := fun s => ((x s.2).1, s.1, (x s.2).2)

/-- A call on the first of two states that are kept side by side. -/
def onFst {τ : Type} (x : Eff σ ε α) : Eff (σ × τ) ε α := fun s => ((x s.1).1, (x s.1).2, s.2)

/-- The state a transaction leaves: what the call wrote if it succeeds, the old state otherwise. -/
def commit (x : Eff σ ε α) (s : σ) : σ :=
  match x s with
  | (.ok _, s') => s'
  | _ => s

/-- A call for every element of a list, until one fails. -/
def forEach (xs : List α) (f : α → Eff σ ε Unit) : Eff σ ε Unit :=
  match xs with
  | [] => pure ()
  | x :: rest => f x >>= fun _ => forEach rest f

/-- A call succeeds on a state, with a value and a new state. -/
def Succeeds (x : Eff σ ε α) (s : σ) (a : α) (s' : σ) : Prop := x s = (.ok a, s')

variable {s s' : σ} {x : Eff σ ε α} {a : α} {f : α → Eff σ ε β} {e : ε} {b : β} {u : Unit}

/-! ### Calls that succeed -/

@[simp] theorem pure_ok {b : α} : (pure a : Eff σ ε α).Succeeds s b s' ↔ b = a ∧ s' = s := by
  simp only [Succeeds, pure, Prod.mk.injEq, Outcome.ok.injEq]
  exact ⟨fun h => ⟨h.1.symm, h.2.symm⟩, fun h => ⟨h.1.symm, h.2.symm⟩⟩

@[simp] theorem fail_ok : ¬(fail e : Eff σ ε α).Succeeds s a s' := by
  intro h
  cases h

@[simp] theorem crash_ok {m : String} : ¬(crash m : Eff σ ε α).Succeeds s a s' := by
  intro h
  cases h

variable {t : σ} {c : Prop} {δ τ : Type} {g : σ → σ} {P : σ → Prop} {xs : List α}

@[simp] theorem read_ok : (read : Eff σ ε σ).Succeeds s t s' ↔ t = s ∧ s' = s := by
  simp only [Succeeds, read, Prod.mk.injEq, Outcome.ok.injEq]
  exact ⟨fun h => ⟨h.1.symm, h.2.symm⟩, fun h => ⟨h.1.symm, h.2.symm⟩⟩

@[simp] theorem modify_ok {f : σ → σ} : (modify f : Eff σ ε Unit).Succeeds s u s' ↔ s' = f s := by
  simp only [Succeeds, modify, Prod.mk.injEq, true_and]
  exact eq_comm

@[simp] theorem require_ok [Decidable c] : (require c e : Eff σ ε Unit).Succeeds s u s' ↔ c ∧ s' = s := by
  unfold require
  split
  · rename_i h
    simp [h]
  · rename_i h
    simp [h]

@[simp] theorem lift_ok {x : Outcome ε α} : (lift x : Eff σ ε α).Succeeds s a s' ↔ x = .ok a ∧ s' = s := by
  simp only [Succeeds, lift, Prod.mk.injEq, eq_comm]

@[simp] theorem query_ok {f : σ → Outcome ε α} : (query f : Eff σ ε α).Succeeds s a s' ↔ f s = .ok a ∧ s' = s := by
  simp only [Succeeds, query, Prod.mk.injEq, eq_comm]

/-- Changing the error of a call does not change when it succeeds. -/
@[simp] theorem mapErr_ok {f : ε → δ} : (x.mapErr f).Succeeds s a s' ↔ x.Succeeds s a s' := by
  unfold Succeeds mapErr
  generalize x s = r
  obtain ⟨o, t⟩ := r
  cases o <;> simp [Outcome.mapErr]

@[simp] theorem must_ok : x.must.Succeeds s a s' ↔ x.Succeeds s a s' := by
  unfold Succeeds must
  generalize x s = r
  obtain ⟨o, t⟩ := r
  cases o <;> simp

@[simp] theorem onSnd_ok {x : Eff τ ε α} {s s' : σ × τ} : x.onSnd.Succeeds s a s' ↔ s'.1 = s.1 ∧ x.Succeeds s.2 a s'.2 := by
  obtain ⟨s₁, s₂⟩ := s'
  unfold Succeeds onSnd
  rw [Prod.mk.injEq, Prod.mk.injEq, Prod.ext_iff]
  dsimp only
  rw [eq_comm (a := s.1)]
  exact and_left_comm

theorem onFst_ok {s s' : σ × τ} : x.onFst.Succeeds s a s' ↔ x.Succeeds s.1 a s'.1 ∧ s'.2 = s.2 := by
  obtain ⟨s₁, s₂⟩ := s'
  unfold Succeeds onFst
  rw [Prod.mk.injEq, Prod.mk.injEq, Prod.ext_iff, eq_comm (a := s.2), ← and_assoc]

/-- A call that returns no error succeeds with the state it leaves. -/
theorem succeeds_of_isOk (h : (x s).1.isOk = true) : ∃ a, x.Succeeds s a (x s).2 := by
  unfold Succeeds
  generalize x s = r at h ⊢
  obtain ⟨o, s'⟩ := r
  cases o with
  | ok a => exact ⟨a, rfl⟩
  | err e => cases h
  | panic m => cases h

theorem succeeds_of_fst_eq (h : (x s).1 = .ok a) : x.Succeeds s a (x s).2 := by
  unfold Succeeds
  rw [← h]

theorem ok_unit_of_isOk {x : Eff σ ε Unit} (h : (x s).1.isOk = true) : x.Succeeds s () (x s).2 :=
  (succeeds_of_isOk h).elim fun _ hx => hx

theorem Succeeds.commit_eq (h : x.Succeeds s a s') : x.commit s = s' := by
  unfold Eff.commit
  rw [h]

/-- An attempt of a call that succeeds. -/
theorem Succeeds.attempt (h : x.Succeeds s a s') : x.attempt.Succeeds s (.ok a) s' := by
  unfold Succeeds Eff.attempt
  rw [h]

theorem attempt_commit_of_ok (h : x.Succeeds s a s') : x.attempt.commit s = s' := h.attempt.commit_eq

/-- A sequence whose first call succeeds goes on from the state it leaves. -/
theorem Succeeds.bind_eq (h : x.Succeeds s a s') : (x >>= f) s = f a s' := by
  show andThen x f s = _
  unfold andThen
  rw [h]

/-- A sequence whose first call fails ends there. -/
theorem bind_of_err (h : x s = (.err e, s')) : (x >>= f) s = (.err e, s') := by
  show andThen x f s = _
  unfold andThen
  rw [h]

theorem bind_of_panic {m : String} (h : x s = (.panic m, s')) : (x >>= f) s = (.panic m, s') := by
  show andThen x f s = _
  unfold andThen
  rw [h]

theorem mapErr_apply {g : ε → δ} : x.mapErr g s = ((x s).1.mapErr g, (x s).2) := rfl

/-- A sequence succeeds when both calls do, the second from the state the first leaves. -/
@[simp] theorem bind_ok : (x >>= f).Succeeds s b s' ↔ ∃ a t, x.Succeeds s a t ∧ (f a).Succeeds t b s' := by
  show andThen x f s = (.ok b, s') ↔ _
  unfold andThen Succeeds
  constructor
  · intro h
    split at h
    · rename_i a t hx
      exact ⟨a, t, hx, h⟩
    · cases h
    · cases h
  · rintro ⟨a, t, hx, h⟩
    rw [hx]
    exact h

/-- A value computed from the result of a call leaves the state of the call. -/
theorem bind_pure_snd (x : Eff σ ε α) (f : α → β) (s : σ) : ((x >>= fun a => pure (f a)) s).2 = (x s).2 := by
  show (andThen x (fun a => pure (f a)) s).2 = _
  unfold andThen
  rcases h : x s with ⟨_ | _ | _, t⟩ <;> rfl

/-! A sequence that starts with one of the small calls. -/

theorem read_bind_ok {f : σ → Eff σ ε β} : (read >>= f).Succeeds s b s' ↔ (f s).Succeeds s b s' := Iff.rfl

theorem modify_bind_ok {f : Unit → Eff σ ε β} : (modify g >>= f).Succeeds s b s' ↔ (f ()).Succeeds (g s) b s' := Iff.rfl

theorem require_bind_apply [Decidable c] {f : Unit → Eff σ ε β} (s : σ) :
    (require c e >>= f) s = if c then f () s else (.err e, s) := by
  unfold require
  split <;> rfl

theorem require_bind_ok [Decidable c] {f : Unit → Eff σ ε β} :
    (require c e >>= f).Succeeds s b s' ↔ c ∧ (f ()).Succeeds s b s' := by
  rw [bind_ok]
  constructor
  · rintro ⟨_, t, hr, h⟩
    obtain ⟨hc, rfl⟩ := require_ok.1 hr
    exact ⟨hc, h⟩
  · rintro ⟨hc, h⟩
    exact ⟨(), s, require_ok.2 ⟨hc, rfl⟩, h⟩

theorem query_bind_ok {q : σ → Outcome ε α} :
    (query q >>= f).Succeeds s b s' ↔ ∃ a, q s = .ok a ∧ (f a).Succeeds s b s' := by
  simp [and_assoc]

theorem lift_bind_ok {x : Outcome ε α} :
    (lift x >>= f).Succeeds s b s' ↔ ∃ a, x = .ok a ∧ (f a).Succeeds s b s' := query_bind_ok

/-- An attempt leaves the state of the call, whatever its outcome. -/
theorem attempt_ok_state {r : Except ε α} (h : x.attempt.Succeeds s r s') : s' = (x s).2 := by
  unfold Succeeds attempt at h
  generalize x s = p at h ⊢
  obtain ⟨o, t⟩ := p
  cases o with
  | ok a => exact (congrArg Prod.snd h).symm
  | err e => exact (congrArg Prod.snd h).symm
  | panic msg => exact (congrArg Prod.snd h).symm

/-- An error that an attempt gives is that of the call. -/
theorem attempt_eq_ok (h : x.attempt.Succeeds s (.ok a) s') : x.Succeeds s a s' := by
  unfold Succeeds Eff.attempt at *
  generalize x s = r at h ⊢
  obtain ⟨o, t⟩ := r
  cases o with
  | ok b => simpa using h
  | err e => simp at h
  | panic m => cases h

theorem attempt_eq_error (h : x.attempt.Succeeds s (.error e) s') : (x s).1 = .err e := by
  unfold Succeeds Eff.attempt at h
  split at h
  · cases h
  · rename_i e' t hx
    obtain rfl : e' = e := Except.error.inj (Outcome.ok.inj (congrArg Prod.fst h))
    rw [hx]
  · cases h

/-- A transaction leaves the old state or the state of a call that succeeds. -/
theorem commit_cases (x : Eff σ ε α) (s : σ) : x.commit s = s ∨ ∃ a, x.Succeeds s a (x.commit s) := by
  unfold commit Succeeds
  split
  · rename_i a s' h
    exact .inr ⟨a, h⟩
  · exact .inl rfl

/-- A transaction keeps what its call keeps when it succeeds. -/
theorem commit_of_ok (hs : P s) (hx : ∀ a t, x.Succeeds s a t → P t) : P (x.commit s) := by
  rcases commit_cases x s with h | ⟨a, h⟩
  · rw [h]
    exact hs
  · exact hx a _ h

/-! ### Loops that succeed -/

/-- A loop over two lists one after the other. -/
theorem forEach_append_ok {ys : List α} {f : α → Eff σ ε Unit} : (forEach (xs ++ ys) f).Succeeds s u t ↔
      ∃ s', (forEach xs f).Succeeds s () s' ∧ (forEach ys f).Succeeds s' u t := by
  induction xs generalizing s with
  | nil =>
    constructor
    · intro h
      exact ⟨s, rfl, h⟩
    · rintro ⟨s', hs', h⟩
      obtain rfl := (pure_ok.1 hs').2
      exact h
  | cons x rest ih =>
    constructor
    · intro h
      obtain ⟨v, s₁, hx, hrest⟩ := bind_ok.1 h
      obtain ⟨s', hs', ht⟩ := ih.1 hrest
      exact ⟨s', bind_ok.2 ⟨v, s₁, hx, hs'⟩, ht⟩
    · rintro ⟨s', hs', ht⟩
      obtain ⟨v, s₁, hx, hrest⟩ := bind_ok.1 hs'
      exact bind_ok.2 ⟨v, s₁, hx, ih.2 ⟨s', hrest, ht⟩⟩

/-- The turn of an element in a loop that succeeds, with the turns before and after it. -/
theorem forEach_ok_split {f : α → Eff σ ε Unit} (h : (forEach xs f).Succeeds s () t) {x : α} (hx : x ∈ xs) :
    ∃ before after s₁ s₂, xs = before ++ x :: after ∧ (forEach before f).Succeeds s () s₁ ∧ (f x).Succeeds s₁ () s₂ ∧
      (forEach after f).Succeeds s₂ () t := by
  obtain ⟨before, after, rfl⟩ := List.append_of_mem hx
  obtain ⟨s₁, hb, hrest⟩ := forEach_append_ok.1 h
  obtain ⟨_, s₂, ht, ha⟩ := bind_ok.1 hrest
  exact ⟨before, after, s₁, s₂, rfl, hb, ht, ha⟩

/-- The invariant rule for a loop that succeeds. -/
theorem forEach_induction {f : α → Eff σ ε Unit} (h : (forEach xs f).Succeeds s () t)
    (hst : ∀ x ∈ xs, ∀ s t, P s → (f x).Succeeds s () t → P t) (hs : P s) : P t := by
  induction xs generalizing s with
  | nil =>
    obtain rfl := (pure_ok.1 h).2
    exact hs
  | cons x rest ih =>
    obtain ⟨_, s₁, hx, hrest⟩ := bind_ok.1 h
    exact ih hrest (fun y hy => hst y (List.mem_cons_of_mem _ hy)) (hst x List.mem_cons_self s s₁ hs hx)

/-- A loop over the values of a list of pairs, as one over the pairs. -/
theorem forEach_map {γ : Type} (xs : List γ) (g : γ → α) (f : α → Eff σ ε Unit) :
    forEach (xs.map g) f = forEach xs fun x => f (g x) := by
  induction xs with
  | nil => rfl
  | cons x rest ih =>
    rw [List.map_cons, forEach, forEach, ih]

/-- The rule for a loop that is to succeed: every turn succeeds and adds its element to those that were done. -/
theorem forEach_ok_of (xs : List α) (f : α → Eff σ ε Unit) (R : List α → σ → Prop) (hs : R [] s)
    (hst : ∀ before x after, xs = before ++ x :: after → ∀ s, R before s → ∃ t, (f x).Succeeds s () t ∧ R (before ++ [x]) t) :
    ∃ t, (forEach xs f).Succeeds s () t ∧ R xs t := by
  suffices hf : ∀ after before s, xs = before ++ after → R before s →
      ∃ t, (forEach after f).Succeeds s () t ∧ R xs t from hf xs [] s rfl hs
  intro after
  induction after with
  | nil =>
    intro before s hxs hb
    rw [List.append_nil] at hxs
    exact ⟨s, rfl, hxs ▸ hb⟩
  | cons x rest ih =>
    intro before s hxs hb
    obtain ⟨s₁, htu, hne⟩ := hst before x rest hxs s hb
    obtain ⟨t, hl, ht⟩ := ih (before ++ [x]) s₁ (by rw [hxs, List.append_assoc]; rfl) hne
    exact ⟨t, bind_ok.2 ⟨(), s₁, htu, hl⟩, ht⟩

/-! ### The first call of a sequence -/

/-- After a call that leaves the state alone the sequence has ended in that state, or goes on from it. -/
theorem bind_of_unchanged (hx : (x s).2 = s) (hs : P s) (hf : ∀ a, P (f a s).2) : P ((x >>= f) s).2 := by
  show P (andThen x f s).2
  unfold andThen
  split <;> rename_i h <;> rw [h] at hx <;> obtain rfl : _ = s := hx
  · exact hf _
  · exact hs
  · exact hs

theorem require_unchanged (c : Prop) [Decidable c] (e : ε) (s : σ) : (require c e s).2 = s := by
  unfold require
  split <;> rfl

theorem modify_bind {f : Unit → Eff σ ε β} : (modify g >>= f) s = f () (g s) := rfl

theorem read_bind {f : σ → Eff σ ε β} : (read >>= f) s = f s s := rfl

/-! ### What a call returns -/

/-- Whatever a call returns has a property. -/
def Returns (P : α → Prop) (x : Eff σ ε α) : Prop := ∀ s a t, x.Succeeds s a t → P a

theorem Returns.pure {P : α → Prop} (h : P a) : Returns P (pure a : Eff σ ε α) := by
  intro s b t hb
  rw [(pure_ok.1 hb).1]
  exact h

/-- A sequence returns what its second call does, whatever the first returns. -/
theorem Returns.bind {P : β → Prop} (h : ∀ a, Returns P (f a)) : Returns P (x >>= f) := by
  intro s b t hb
  obtain ⟨a, s', -, hfa⟩ := bind_ok.1 hb
  exact h a s' b t hfa

/-! ### What a call does to the state, however it ends -/

/-- A call moves the state along a relation, however it ends. -/
def Respects (R : σ → σ → Prop) (x : Eff σ ε α) : Prop := ∀ s, R s (x s).2

section Respects

variable {R : σ → σ → Prop}

/-- A sequence moves the state along a transitive relation when both calls do. -/
theorem Respects.bind (ht : ∀ ⦃s t u⦄, R s t → R t u → R s u)
    (hx : Respects R x) (hf : ∀ a, Respects R (f a)) : Respects R (x >>= f) := by
  intro s
  show R s (andThen x f s).2
  have h := hx s
  unfold andThen
  split <;> rename_i heq <;> rw [heq] at h
  · exact ht h (hf _ _)
  · exact h
  · exact h

/-- A call that only looks at the state moves along a reflexive relation. -/
theorem Respects.of_unchanged (hr : ∀ s, R s s) (h : ∀ s, (x s).2 = s) : Respects R x := by
  intro s
  rw [h s]
  exact hr s

/-- Handling the error of a call leaves its writes. -/
theorem Respects.attempt (hx : Respects R x) : Respects R x.attempt := by
  intro s
  have h := hx s
  unfold Eff.attempt
  split <;> rename_i heq <;> rwa [heq] at h

/-- A loop moves the state along a preorder when its body does. -/
theorem Respects.forEach (hr : ∀ s, R s s) (ht : ∀ ⦃s t u⦄, R s t → R t u → R s u) {f : α → Eff σ ε Unit}
    (hf : ∀ x, Respects R (f x)) (xs : List α) : Respects R (forEach xs f) := by
  induction xs with
  | nil => exact hr
  | cons x rest ih => exact Respects.bind ht (hf x) fun _ => ih

/-- A transaction moves the state along a reflexive relation when its call does. -/
theorem Respects.commit (hr : ∀ s, R s s) (hx : Respects R x) (s : σ) : R s (x.commit s) := by
  have h := hx s
  unfold Eff.commit
  split
  · rename_i heq
    rwa [heq] at h
  · exact hr s

end Respects

/-! ### Calls with and without errors -/

/-- A sequence returns the error of the first call, or of the second from the state the first leaves. -/
theorem bind_eq_err (h : (x >>= f) s = (.err e, t)) :
    x s = (.err e, t) ∨ ∃ a s', x.Succeeds s a s' ∧ f a s' = (.err e, t) := by
  change andThen x f s = _ at h
  unfold andThen at h
  split at h
  · rename_i a s' heq
    exact .inr ⟨a, s', heq, h⟩
  · rename_i heq
    obtain ⟨he, ht⟩ := Prod.mk.inj h
    obtain rfl := Outcome.err.inj he
    exact .inl (ht ▸ heq)
  · cases h

/-- A call never returns an error, though it may panic. -/
def NoError (x : Eff σ ε α) : Prop := ∀ s e t, x s ≠ (.err e, t)

/-- An attempt returns the error as a value. -/
theorem attempt_noError (x : Eff σ ε α) : NoError x.attempt := by
  intro s e t h
  unfold Eff.attempt at h
  split at h <;> nomatch h

theorem NoError.pure (a : α) : NoError (pure a : Eff σ ε α) := fun _ _ _ h => nomatch h

theorem NoError.crash (m : String) : NoError (crash m : Eff σ ε α) := fun _ _ _ h => nomatch h

theorem NoError.modify (f : σ → σ) : NoError (modify f : Eff σ ε Unit) := fun _ _ _ h => nomatch h

theorem NoError.ite [Decidable c] {y : Eff σ ε α} (hx : NoError x) (hy : NoError y) : NoError (if c then x else y) := by
  split
  · exact hx
  · exact hy

/-- A sequence returns no error when neither call does. -/
theorem NoError.bind (hx : NoError x) (hf : ∀ a, NoError (f a)) : NoError (x >>= f) := by
  intro s e t h
  rcases bind_eq_err h with hfi | ⟨a, s', -, hs⟩
  · exact hx _ _ _ hfi
  · exact hf _ _ _ _ hs

/-! ### Invariants of calls -/

/-- From a state on, a call keeps a property unless it panics: the writes before an error keep it as well. -/
def KeepsAt (P : σ → Prop) (x : Eff σ ε α) (s : σ) : Prop := P s → (∀ m, (x s).1 ≠ .panic m) → P (x s).2

/-- A call keeps a property of the state unless it panics. -/
def Keeps (P : σ → Prop) (x : Eff σ ε α) : Prop := ∀ s, KeepsAt P x s

section Keeps

variable {P : σ → Prop}

/-- What a call keeps when it succeeds and when it returns an error. -/
theorem KeepsAt.of_cases (hok : ∀ a t, P s → x.Succeeds s a t → P t)
    (her : ∀ e t, P s → x s = (.err e, t) → P t) : KeepsAt P x s := by
  intro hs hp
  rcases hx : x s with ⟨o, t⟩
  cases o with
  | ok a => exact hok a t hs hx
  | err e => exact her e t hs hx
  | panic m => exact absurd (by rw [hx]) (hp m)

/-- A call keeps what it keeps when it succeeds, if its errors come before its first write. -/
theorem Keeps.of_ok (hok : ∀ s a t, P s → x.Succeeds s a t → P t) (her : ∀ s e t, x s = (.err e, t) → t = s) : Keeps P x :=
  fun s => KeepsAt.of_cases (hok s) fun e t hs h => her s e t h ▸ hs

/-- A call that only looks at the state keeps everything. -/
theorem Keeps.of_unchanged (h : ∀ s, (x s).2 = s) : Keeps P x := by
  intro s hs _
  rw [h s]
  exact hs

theorem Keeps.pure (a : α) : Keeps P (pure a : Eff σ ε α) := Keeps.of_unchanged fun _ => rfl

theorem Keeps.read : Keeps P (read : Eff σ ε σ) := Keeps.of_unchanged fun _ => rfl

theorem Keeps.query (f : σ → Outcome ε α) : Keeps P (query f) := Keeps.of_unchanged fun _ => rfl

theorem Keeps.lift (x : Outcome ε α) : Keeps P (lift x) := Keeps.of_unchanged fun _ => rfl

theorem Keeps.fail (e : ε) : Keeps P (fail e : Eff σ ε α) := Keeps.of_unchanged fun _ => rfl

theorem Keeps.crash (m : String) : Keeps P (crash m : Eff σ ε α) := Keeps.of_unchanged fun _ => rfl

theorem Keeps.modify {f : σ → σ} (h : ∀ s, P s → P (f s)) : Keeps P (modify f : Eff σ ε Unit) := fun s hs _ => h s hs

/-- A sequence keeps what both calls keep, the second from the states the first may leave. -/
theorem KeepsAt.bind (hx : KeepsAt P x s) (hf : ∀ a t, x.Succeeds s a t → KeepsAt P (f a) t) : KeepsAt P (x >>= f) s := by
  intro hs hp
  change ∀ m, (andThen x f s).1 ≠ .panic m at hp
  show P (andThen x f s).2
  have hx := hx hs
  unfold andThen at hp ⊢
  split <;> rename_i heq <;> rw [heq] at hx hp
  · exact hf _ _ heq (hx fun _ h => nomatch h) hp
  · exact hx fun _ h => nomatch h
  · exact absurd rfl (hp _)

theorem Keeps.bind (hx : Keeps P x) (hf : ∀ a, Keeps P (f a)) : Keeps P (x >>= f) :=
  fun s => (hx s).bind fun a t _ => hf a t

/-- What is read at first is the state that the rest works on. -/
theorem KeepsAt.read_bind {f : σ → Eff σ ε β} (hf : KeepsAt P (f s) s) : KeepsAt P (Eff.read >>= f) s := hf

/-- What is computed from the state at first may be used. -/
theorem KeepsAt.query_bind {q : σ → Outcome ε α} (hf : ∀ a, q s = .ok a → KeepsAt P (f a) s) :
    KeepsAt P (Eff.query q >>= f) s := by
  refine KeepsAt.bind (Keeps.query q s) fun a t h => ?_
  obtain ⟨ha, rfl⟩ := query_ok.1 h
  exact hf a ha

theorem KeepsAt.lift_bind {x : Outcome ε α} (hf : ∀ a, x = .ok a → KeepsAt P (f a) s) :
    KeepsAt P (Eff.lift x >>= f) s := KeepsAt.query_bind hf

variable {c : Prop}

/-- After a condition was checked it may be used. -/
theorem KeepsAt.require_bind [Decidable c] {f : Unit → Eff σ ε β} (hf : c → KeepsAt P (f ()) s) :
    KeepsAt P (require c e >>= f) s := by
  unfold require
  split
  · rename_i hc
    exact hf hc
  · exact Keeps.of_unchanged (fun _ => rfl) s

theorem Keeps.require_bind [Decidable c] {f : Unit → Eff σ ε β} (hf : c → Keeps P (f ())) :
    Keeps P (require c e >>= f) := fun s => KeepsAt.require_bind fun hc => hf hc s

theorem Keeps.ite [Decidable c] {y : Eff σ ε α} (hx : c → Keeps P x) (hy : ¬c → Keeps P y) :
    Keeps P (if c then x else y) := by
  split
  · exact hx ‹_›
  · exact hy ‹_›

theorem Keeps.mapErr {δ : Type} {g : ε → δ} (hx : Keeps P x) : Keeps P (x.mapErr g) := by
  intro s hs hp
  refine hx s hs fun m hm => hp m ?_
  unfold Eff.mapErr
  rw [hm]
  rfl

/-- Handling the error of a call leaves its writes. -/
theorem KeepsAt.attempt (hx : KeepsAt P x s) : KeepsAt P x.attempt s := by
  intro hs hp
  have hx := hx hs
  unfold Eff.attempt at hp ⊢
  split <;> rename_i heq <;> rw [heq] at hx hp
  · exact hx fun _ h => nomatch h
  · exact hx fun _ h => nomatch h
  · exact absurd rfl (hp _)

theorem Keeps.attempt (hx : Keeps P x) : Keeps P x.attempt := fun s => (hx s).attempt

/-- A loop keeps what its body keeps for every element. -/
theorem Keeps.forEach_mem {f : α → Eff σ ε Unit} {xs : List α} (hf : ∀ x ∈ xs, Keeps P (f x)) : Keeps P (forEach xs f) := by
  induction xs with
  | nil => exact Keeps.pure ()
  | cons x rest ih =>
    exact Keeps.bind (hf x List.mem_cons_self) fun _ => ih fun y hy => hf y (List.mem_cons_of_mem _ hy)

/-- A loop keeps what its body keeps. -/
theorem Keeps.forEach {f : α → Eff σ ε Unit} (hf : ∀ x, Keeps P (f x)) (xs : List α) : Keeps P (forEach xs f) :=
  Keeps.forEach_mem fun x _ => hf x

/-- A transaction keeps what its call keeps. -/
theorem KeepsAt.commit (hx : KeepsAt P x s) (hs : P s) : P (x.commit s) := by
  have hx := hx hs
  unfold Eff.commit
  split
  · rename_i heq
    rw [heq] at hx
    exact hx fun _ h => nomatch h
  · exact hs

theorem Keeps.commit (hx : Keeps P x) (hs : P s) : P (x.commit s) := (hx s).commit hs

end Keeps

/-! ### Calls on two states that are alike -/

/-- A call ends alike on states that are alike, and leaves them alike. -/
def Agrees (R : σ → σ → Prop) (x : Eff σ ε α) : Prop := ∀ s t, R s t → (x s).1 = (x t).1 ∧ R (x s).2 (x t).2

section Agrees

variable {R : σ → σ → Prop}

theorem Agrees.pure (a : α) : Agrees R (pure a : Eff σ ε α) := fun _ _ h => ⟨rfl, h⟩

theorem Agrees.fail (e : ε) : Agrees R (fail e : Eff σ ε α) := fun _ _ h => ⟨rfl, h⟩

theorem Agrees.crash (m : String) : Agrees R (crash m : Eff σ ε α) := fun _ _ h => ⟨rfl, h⟩

/-- What is computed from the state is the same on states that are alike. -/
theorem Agrees.query {f : σ → Outcome ε α} (hf : ∀ s t, R s t → f s = f t) : Agrees R (query f) :=
  fun s t h => ⟨hf s t h, h⟩

theorem Agrees.modify {f : σ → σ} (hf : ∀ s t, R s t → R (f s) (f t)) : Agrees R (modify f : Eff σ ε Unit) :=
  fun s t h => ⟨rfl, hf s t h⟩

theorem Agrees.bind (hx : Agrees R x) (hf : ∀ a, Agrees R (f a)) : Agrees R (x >>= f) := by
  intro s t h
  obtain ⟨hfs, hsn⟩ := hx s t h
  show (andThen x f s).1 = (andThen x f t).1 ∧ R (andThen x f s).2 (andThen x f t).2
  unfold andThen
  rcases hs : x s with ⟨o, s'⟩
  rcases ht : x t with ⟨o', t'⟩
  rw [hs, ht] at hfs hsn
  obtain rfl : o = o' := hfs
  cases o with
  | ok a => exact hf a s' t' hsn
  | err e => exact ⟨rfl, hsn⟩
  | panic m => exact ⟨rfl, hsn⟩

/-- What follows depends on what is alike of the state that was read. -/
theorem Agrees.read_bind {f : σ → Eff σ ε β} (hsame : ∀ s t, R s t → f s = f t) (hf : ∀ s, Agrees R (f s)) :
    Agrees R (read >>= f) := by
  intro s t h
  show (f s s).1 = (f t t).1 ∧ R (f s s).2 (f t t).2
  rw [hsame s t h]
  exact hf t s t h

theorem Agrees.ite {c : Prop} [Decidable c] {y : Eff σ ε α} (hx : Agrees R x) (hy : Agrees R y) :
    Agrees R (if c then x else y) := by
  split
  · exact hx
  · exact hy

theorem Agrees.require (c : Prop) [Decidable c] (e : ε) : Agrees R (require c e : Eff σ ε Unit) :=
  Agrees.ite (Agrees.pure ()) (Agrees.fail e)

theorem Agrees.attempt (hx : Agrees R x) : Agrees R x.attempt := by
  intro s t h
  obtain ⟨hf, hsn⟩ := hx s t h
  unfold Eff.attempt
  rcases hs : x s with ⟨o, s'⟩
  rcases ht : x t with ⟨o', t'⟩
  rw [hs, ht] at hf hsn
  obtain rfl : o = o' := hf
  cases o with
  | ok a => exact ⟨rfl, hsn⟩
  | err e => exact ⟨rfl, hsn⟩
  | panic m => exact ⟨rfl, hsn⟩

theorem Agrees.mapErr {δ : Type} {g : ε → δ} (hx : Agrees R x) : Agrees R (x.mapErr g) := by
  intro s t h
  obtain ⟨hf, hs⟩ := hx s t h
  exact ⟨congrArg (Outcome.mapErr g) hf, hs⟩

end Agrees

end Eff
