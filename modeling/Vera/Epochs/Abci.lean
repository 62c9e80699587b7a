import Vera.Lib.Bytes
import Vera.Lib.Effect
import Vera.Lib.KVStore
import Vera.Lib.Run
import Vera.Lib.Time

/-!
# Epochs

`x/epochs`. Each block looks at every epoch and starts at most one period of it. What a hook writes is dropped if it fails or
panics, and its error is swallowed; only a panic for want of gas stops the block.
-/

namespace Vera.Epochs

open Eff KVStore List
open Bytes (str)

structure EpochInfo where
  identifier : Bytes
  startTime : Time
  /-- In nanoseconds. -/
  duration : Int
  currentEpoch : Int
  currentEpochStartTime : Time
  epochCountingStarted : Bool
  currentEpochStartHeight : Int
  deriving DecidableEq

def EpochInfo.validate (epoch : EpochInfo) : Except Bytes Unit :=
  if epoch.identifier = [] then .error (str "epoch identifier should NOT be empty")
  else if epoch.duration = 0 then .error (str "epoch duration should NOT be 0")
  else if epoch.currentEpoch < 0 then .error (str "epoch CurrentEpoch must be non-negative")
  else if epoch.currentEpochStartHeight < 0 then .error (str "epoch CurrentEpochStartHeight must be non-negative")
  else .ok ()

structure Ctx where
  blockTime : Time
  blockHeight : Int

inductive Moment where
  | beforeStart
  | afterEnd
  deriving DecidableEq

/-- A call of a hook. -/
structure Call where
  moduleName : Bytes
  moment : Moment
  epochIdentifier : Bytes
  epochNumber : Int
  deriving DecidableEq

/-- The hooks of a module, over the state `σ` of all modules but this one: they read the epochs and do not write them. -/
structure EpochHooks (σ : Type) where
  getModuleName : Bytes
  afterEpochEnd : Ctx → KVStore Bytes EpochInfo → Bytes → Int → Eff σ Bytes Unit
  beforeEpochStart : Ctx → KVStore Bytes EpochInfo → Bytes → Int → Eff σ Bytes Unit

/-- The stored epochs, the state of the other modules, and the hooks called so far. -/
structure State (σ : Type) where
  epochs : KVStore Bytes EpochInfo
  modules : σ
  calls : List Call

/-- The registered hooks, and which panics are for want of gas (`IsOutOfGasError`). -/
structure Env (σ : Type) where
  hooks : List (EpochHooks σ)
  isOutOfGasError : String → Bool

variable {σ : Type} (Γ : Env σ)

/-- `ApplyFuncIfNoError`: what `f` writes stays if it returns no error. -/
def applyFunc (f : Eff σ Bytes Unit) : Eff (State σ) Bytes Unit := fun s =>
  match f s.modules with
  | (.ok _, m) => (.ok (), { s with modules := m })
  | (.err e, _) => (.err e, s)
  | (.panic e, _) =>
    if Γ.isOutOfGasError e then (.panic e, s) else (.err (str "panic occurred during execution"), s)

/-- The call is noted, and its error only logged. -/
def panicCatchingEpochHook (call : Call) (hookFn : KVStore Bytes EpochInfo → Bytes → Int → Eff σ Bytes Unit) :
    Eff (State σ) Bytes Unit := do
  modify fun s => { s with calls := s.calls ++ [call] }
  let s ← read
  let _ ← (applyFunc Γ (hookFn s.epochs call.epochIdentifier call.epochNumber)).attempt
  pure ()

def afterEpochEnd (ctx : Ctx) (epochIdentifier : Bytes) (epochNumber : Int) : Eff (State σ) Bytes Unit :=
  forEach Γ.hooks fun hook =>
    panicCatchingEpochHook Γ ⟨hook.getModuleName, .afterEnd, epochIdentifier, epochNumber⟩ (hook.afterEpochEnd ctx)

def beforeEpochStart (ctx : Ctx) (epochIdentifier : Bytes) (epochNumber : Int) : Eff (State σ) Bytes Unit :=
  forEach Γ.hooks fun hook =>
    panicCatchingEpochHook Γ ⟨hook.getModuleName, .beforeStart, epochIdentifier, epochNumber⟩ (hook.beforeEpochStart ctx)

def setEpochInfo (epoch : EpochInfo) : Eff (State σ) Bytes Unit :=
  if epoch.startTime.marshalable ∧ epoch.currentEpochStartTime.marshalable then
    modify fun s => { s with epochs := s.epochs.set epoch.identifier epoch }
  else crash "timestamp out of range"

/-- What `BeginBlocker` does with one epoch. -/
def checkEpoch (ctx : Ctx) (epochInfo : EpochInfo) : Eff (State σ) Bytes Unit :=
  if ctx.blockTime.before epochInfo.startTime then pure () else
  let shouldInitialEpochStart := !epochInfo.epochCountingStarted
  let epochEndTime := epochInfo.currentEpochStartTime.add epochInfo.duration
  let shouldEpochStart := ctx.blockTime.after epochEndTime || shouldInitialEpochStart
  if !shouldEpochStart then pure () else
  let epochInfo := { epochInfo with currentEpochStartHeight := ctx.blockHeight }
  if shouldInitialEpochStart then do
    let epochInfo := { epochInfo with
      epochCountingStarted := true, currentEpoch := 1, currentEpochStartTime := epochInfo.startTime }
    setEpochInfo epochInfo
    beforeEpochStart Γ ctx epochInfo.identifier epochInfo.currentEpoch
  else do
    afterEpochEnd Γ ctx epochInfo.identifier epochInfo.currentEpoch
    let epochInfo := { epochInfo with
      currentEpoch := epochInfo.currentEpoch + 1
      currentEpochStartTime := epochInfo.currentEpochStartTime.add epochInfo.duration }
    setEpochInfo epochInfo
    beforeEpochStart Γ ctx epochInfo.identifier epochInfo.currentEpoch

def beginBlocker (ctx : Ctx) : Eff (State σ) Bytes Unit := do
  let s ← read
  forEach (s.epochs.entries.map Prod.snd) (checkEpoch Γ ctx)

/-- One block: a panic leaves nothing of it. -/
def step (s : State σ) (ctx : Ctx) : State σ := (beginBlocker Γ ctx).commit s

/-! ## One epoch in one block -/

/-- Every registered hook is called, in order. -/
def callsAt (identifier : Bytes) (at_ : Moment × Int) : List Call :=
  Γ.hooks.map fun hook => ⟨hook.getModuleName, at_.1, identifier, at_.2⟩

/-- The calls made for an epoch. -/
def State.callsOf (s : State σ) (identifier : Bytes) : List Call := s.calls.filter (·.epochIdentifier = identifier)

variable {Γ} {ctx : Ctx} {s t : State σ} {u : Unit} {id : Bytes} {e e' : EpochInfo}

theorem applyFunc_epochs (f : Eff σ Bytes Unit) (s : State σ) :
    (applyFunc Γ f s).2.epochs = s.epochs ∧ (applyFunc Γ f s).2.calls = s.calls := by
  unfold applyFunc
  split
  · exact ⟨rfl, rfl⟩
  · exact ⟨rfl, rfl⟩
  · split <;> exact ⟨rfl, rfl⟩

theorem panicCatchingEpochHook_ok {call : Call} {f : KVStore Bytes EpochInfo → Bytes → Int → Eff σ Bytes Unit}
    (h : (panicCatchingEpochHook Γ call f).Succeeds s u t) : t.epochs = s.epochs ∧ t.calls = s.calls ++ [call] := by
  unfold panicCatchingEpochHook at h
  rw [modify_bind_ok, read_bind_ok] at h
  obtain ⟨_, t', ha, ht⟩ := bind_ok.1 h
  obtain rfl := (pure_ok.1 ht).2
  rw [attempt_ok_state ha]
  exact applyFunc_epochs _ _

/-- A run of the hooks that ends calls each of them once and leaves the epochs alone, whatever the hooks do. -/
theorem forEach_hooks_ok {hooks : List (EpochHooks σ)} {call : EpochHooks σ → Call}
    {f : EpochHooks σ → KVStore Bytes EpochInfo → Bytes → Int → Eff σ Bytes Unit}
    (h : (forEach hooks fun hook => panicCatchingEpochHook Γ (call hook) (f hook)).Succeeds s u t) :
    t.epochs = s.epochs ∧ t.calls = s.calls ++ hooks.map call := by
  induction hooks generalizing s with
  | nil =>
    obtain rfl := (pure_ok.1 h).2
    exact ⟨rfl, (append_nil _).symm⟩
  | cons hook rest ih =>
    obtain ⟨_, s₁, h₁, h₂⟩ := bind_ok.1 h
    obtain ⟨he, hc⟩ := panicCatchingEpochHook_ok h₁
    obtain ⟨he', hc'⟩ := ih h₂
    exact ⟨he'.trans he, by rw [hc', hc, append_assoc]; rfl⟩

theorem setEpochInfo_ok (h : (setEpochInfo e).Succeeds s u t) :
    t.epochs = s.epochs.set e.identifier e ∧ t.calls = s.calls := by
  unfold setEpochInfo at h
  split at h
  · obtain rfl := modify_ok.1 h
    exact ⟨rfl, rfl⟩
  · exact absurd h crash_ok

/-- The epoch after its first start. -/
def EpochInfo.begun (ctx : Ctx) (e : EpochInfo) : EpochInfo :=
  { e with
    currentEpochStartHeight := ctx.blockHeight, epochCountingStarted := true, currentEpoch := 1
    currentEpochStartTime := e.startTime }

/-- The epoch after the end of one period and the start of the next. -/
def EpochInfo.advanced (ctx : Ctx) (e : EpochInfo) : EpochInfo :=
  { e with
    currentEpochStartHeight := ctx.blockHeight, currentEpoch := e.currentEpoch + 1
    currentEpochStartTime := e.currentEpochStartTime.add e.duration }

/-- What a block may do to an epoch: nothing, its first start, or the step to the next period. -/
inductive Moves (ctx : Ctx) (e : EpochInfo) : EpochInfo → List (Moment × Int) → Prop
  | rests : Moves ctx e e []
  | begins (hc : e.epochCountingStarted = false) (ht : ctx.blockTime.before e.startTime = false) :
    Moves ctx e (e.begun ctx) [(.beforeStart, 1)]
  | advances (hc : e.epochCountingStarted = true)
    (ht : ctx.blockTime.after (e.currentEpochStartTime.add e.duration) = true) :
    Moves ctx e (e.advanced ctx) [(.afterEnd, e.currentEpoch), (.beforeStart, e.currentEpoch + 1)]

theorem Moves.identifier_eq {l : List (Moment × Int)} (h : Moves ctx e e' l) : e'.identifier = e.identifier := by
  cases h <;> rfl

/-- The inversion of the step: whatever the hooks do, the epoch moves, and its hooks are called for the moments of the move. -/
theorem checkEpoch_ok (h : (checkEpoch Γ ctx e).Succeeds s u t) : ∃ e' l, Moves ctx e e' l ∧
    (t.epochs = s.epochs ∧ e' = e ∨ t.epochs = s.epochs.set e.identifier e') ∧
    t.calls = s.calls ++ l.flatMap (callsAt Γ e.identifier) := by
  unfold checkEpoch at h
  split at h
  · obtain rfl := (pure_ok.1 h).2
    exact ⟨e, [], .rests, .inl ⟨rfl, rfl⟩, (append_nil _).symm⟩
  rename_i hb
  dsimp only at h
  split at h
  · obtain rfl := (pure_ok.1 h).2
    exact ⟨e, [], .rests, .inl ⟨rfl, rfl⟩, (append_nil _).symm⟩
  rename_i hstart
  split at h
  · rename_i hc
    obtain ⟨_, s₁, h₁, h₂⟩ := bind_ok.1 h
    obtain ⟨he₁, hc₁⟩ := setEpochInfo_ok h₁
    obtain ⟨he₂, hc₂⟩ := forEach_hooks_ok h₂
    refine ⟨_, _, .begins (by simpa using hc) (by simpa using hb), .inr (he₂.trans he₁), ?_⟩
    rw [hc₂, hc₁, flatMap_singleton]
    rfl
  · rename_i hc
    obtain ⟨_, s₁, h₁, h₂⟩ := bind_ok.1 h
    obtain ⟨_, s₂, h₂, h₃⟩ := bind_ok.1 h₂
    obtain ⟨he₁, hc₁⟩ := forEach_hooks_ok h₁
    obtain ⟨he₂, hc₂⟩ := setEpochInfo_ok h₂
    obtain ⟨he₃, hc₃⟩ := forEach_hooks_ok h₃
    refine ⟨_, _, .advances (by simpa using hc) (by simpa [hc] using hstart), .inr ?_, ?_⟩
    · rw [he₃, he₂, he₁]
      rfl
    · rw [hc₃, hc₂, hc₁, flatMap_cons, flatMap_singleton, append_assoc]
      rfl

/-! ## All epochs in one block -/

/-- Each epoch is stored under its identifier. -/
def Keyed (s : State σ) : Prop := s.epochs.All fun id e => e.identifier = id

theorem callsOf_append {l : List (Moment × Int)} {id' : Bytes} (h : t.calls = s.calls ++ l.flatMap (callsAt Γ id')) :
    t.callsOf id = s.callsOf id ++ if id' = id then l.flatMap (callsAt Γ id) else [] := by
  have hid : ∀ c ∈ l.flatMap (callsAt Γ id'), c.epochIdentifier = id' := by
    simp only [mem_flatMap, callsAt, mem_map]
    rintro _ ⟨_, _, _, _, rfl⟩
    rfl
  rw [State.callsOf, h, filter_append, State.callsOf]
  congr 1
  split
  · rename_i heq
    subst heq
    simpa [filter_eq_self] using hid
  · rename_i hne
    exact filter_eq_nil_iff.2 fun c hc => by simpa [hid c hc] using hne

/-- The loop over epochs of different identifiers: each stored epoch moves at most once, and only if it is on the list. -/
theorem forEach_checkEpoch_ok {xs : List EpochInfo} (h : (forEach xs (checkEpoch Γ ctx)).Succeeds s u t) (hk : Keyed s)
    (hn : (xs.map EpochInfo.identifier).Nodup) (hx : ∀ x ∈ xs, s.epochs.get x.identifier = some x) : Keyed t ∧
    ∀ id e, s.epochs.get id = some e → ∃ e' l, Moves ctx e e' l ∧ (id ∉ xs.map EpochInfo.identifier → e' = e ∧ l = []) ∧
      t.epochs.get id = some e' ∧ t.callsOf id = s.callsOf id ++ l.flatMap (callsAt Γ id) := by
  induction xs generalizing s with
  | nil =>
    obtain rfl := (pure_ok.1 h).2
    exact ⟨hk, fun id e he => ⟨e, [], .rests, fun _ => ⟨rfl, rfl⟩, he, (append_nil _).symm⟩⟩
  | cons x rest ih =>
    obtain ⟨_, s₁, h₁, h₂⟩ := bind_ok.1 h
    obtain ⟨x', l, hm, hst, hc⟩ := checkEpoch_ok h₁
    have hget : ∀ id, s₁.epochs.get id = if id = x.identifier then some x' else s.epochs.get id := by
      intro id
      rcases hst with ⟨heq, rfl⟩ | heq
      · rw [heq]
        split
        · rename_i hid
          rw [hid, hx x' mem_cons_self]
        · rfl
      · rw [heq, get_set]
    rw [map_cons, nodup_cons] at hn
    have hne : ∀ y ∈ rest, y.identifier ≠ x.identifier := fun y hy heq => hn.1 (heq ▸ mem_map_of_mem hy)
    have hk₁ : Keyed s₁ := by
      intro id v hv
      rw [hget] at hv
      split at hv
      · rename_i hid
        rw [← Option.some.inj hv, hm.identifier_eq, hid]
      · exact hk id v hv
    have hx₁ : ∀ y ∈ rest, s₁.epochs.get y.identifier = some y := fun y hy => by
      rw [hget, if_neg (hne y hy), hx y (mem_cons_of_mem _ hy)]
    obtain ⟨hkt, hrest⟩ := ih h₂ hk₁ hn.2 hx₁
    refine ⟨hkt, fun id e he => ?_⟩
    by_cases hid : id = x.identifier
    · subst hid
      obtain rfl := Option.some.inj ((hx x mem_cons_self).symm.trans he)
      obtain ⟨e', l', -, hoff, ht, hct⟩ := hrest x.identifier x' (by rw [hget, if_pos rfl])
      obtain ⟨rfl, rfl⟩ := hoff hn.1
      refine ⟨e', l, hm, fun hn' => absurd mem_cons_self hn', ht, ?_⟩
      rw [hct, callsOf_append hc, if_pos rfl]
      exact append_nil _
    · obtain ⟨e', l', hm', hoff, ht, hct⟩ := hrest id e (by rw [hget, if_neg hid, he])
      refine ⟨e', l', hm', fun hn' => hoff fun hin => hn' (mem_cons_of_mem _ hin), ht, ?_⟩
      rw [hct, callsOf_append hc, if_neg (Ne.symm hid), append_nil]

/-- In a block a stored epoch moves once. -/
theorem step_moves (ctx : Ctx) (hk : Keyed s) (hs : s.epochs.get id = some e) : Keyed (step Γ s ctx) ∧
    ∃ e' l, Moves ctx e e' l ∧ (step Γ s ctx).epochs.get id = some e' ∧
      (step Γ s ctx).callsOf id = s.callsOf id ++ l.flatMap (callsAt Γ id) := by
  rcases commit_cases (beginBlocker Γ ctx) s with hsame | ⟨u, h⟩
  · rw [step, hsame]
    exact ⟨hk, e, [], .rests, hs, (append_nil _).symm⟩
  · have hid : ∀ p ∈ s.epochs.entries, p.2.identifier = p.1 := fun p hp => hk p.1 p.2 ((mem_entries _).1 hp)
    have hmap : (s.epochs.entries.map Prod.snd).map EpochInfo.identifier = s.epochs.entries.map Prod.fst := by
      rw [map_map]
      exact map_congr_left hid
    obtain ⟨hkt, hm⟩ := forEach_checkEpoch_ok (read_bind_ok.1 h) hk (hmap ▸ nodup_keys _) (by
      simp only [mem_map]
      rintro _ ⟨p, hp, rfl⟩
      rw [hid p hp, ← mem_entries]
      exact hp)
    obtain ⟨e', l, hm, -, ht⟩ := hm id e hs
    exact ⟨hkt, e', l, hm, ht⟩

/-! ## Whole runs -/

/-- The moments of an epoch of which `n` periods have ended: `beforeStart 1, afterEnd 1, …, beforeStart (n + 1)`. -/
def schedule : Nat → List (Moment × Int)
  | 0 => [(.beforeStart, 1)]
  | n + 1 => schedule n ++ [(Moment.afterEnd, (n + 1 : Int)), (.beforeStart, n + 2)]

variable (Γ) in
/-- Counting has not started and no hook was called, or the current period is on the grid and the hooks were called in turn. -/
def OnGrid (e₀ e : EpochInfo) (calls : List Call) : Prop :=
  e = e₀ ∧ calls = [] ∨ ∃ n : Nat, e.epochCountingStarted = true ∧ e.startTime = e₀.startTime ∧ e.duration = e₀.duration ∧
    e.currentEpoch = n + 1 ∧ e.currentEpochStartTime.nanos = e₀.startTime.nanos + n * e₀.duration ∧
    calls = (schedule n).flatMap (callsAt Γ e₀.identifier)

theorem OnGrid.moves {e₀ : EpochInfo} {calls : List Call} {l : List (Moment × Int)} (h : OnGrid Γ e₀ e calls)
    (hc : e₀.epochCountingStarted = false) (hm : Moves ctx e e' l) :
    OnGrid Γ e₀ e' (calls ++ l.flatMap (callsAt Γ e₀.identifier)) := by
  cases hm with
  | rests =>
    rw [flatMap_nil, append_nil]
    exact h
  | begins hce ht =>
    rcases h with ⟨rfl, rfl⟩ | ⟨n, hce', -⟩
    · exact .inr ⟨0, rfl, rfl, rfl, rfl, by simp [EpochInfo.begun], rfl⟩
    · exact absurd (hce.symm.trans hce') (by decide)
  | advances hce ht =>
    rcases h with ⟨rfl, -⟩ | ⟨n, hce', hst, hd, hn, hg, rfl⟩
    · exact absurd (hc.symm.trans hce) (by decide)
    · refine .inr ⟨n + 1, hce', hst, hd, ?_, ?_, ?_⟩
      · simp [EpochInfo.advanced, hn]
      · show (e.currentEpochStartTime.add e.duration).nanos = _
        rw [Time.nanos_add, hg, hd]
        simp [Int.add_mul, Int.add_assoc]
      · rw [schedule, flatMap_append, hn, Int.add_assoc]
        rfl

/-- For every epoch whose counting has not started, all hooks and all blocks: the epoch stays as it is until the first block that
is not before its start time, and is then on the grid with its hooks called in turn; a block moves it by one period at most, and
only after the end of the current one. -/
theorem epochs_on_grid (epochs : KVStore Bytes EpochInfo) (modules : σ) (hk : epochs.All fun id e => e.identifier = id)
    (e₀ : EpochInfo) (h₀ : epochs.get id = some e₀) (hc : e₀.epochCountingStarted = false) (blocks : List Ctx) (ctx : Ctx) :
    let s := Run.run (step Γ) ⟨epochs, modules, []⟩ blocks
    ∃ e, s.epochs.get id = some e ∧ OnGrid Γ e₀ e (s.callsOf id) ∧
      ∃ e' l, (step Γ s ctx).epochs.get id = some e' ∧ Moves ctx e e' l := by
  obtain rfl := hk id e₀ h₀
  have hinv := Run.run_invariant (step Γ)
    (I := fun s => Keyed s ∧ ∃ e, s.epochs.get e₀.identifier = some e ∧ OnGrid Γ e₀ e (s.callsOf e₀.identifier))
    (fun s ctx ⟨hks, e, he, hg⟩ => by
      obtain ⟨hkt, e', l, hm, he', hcalls⟩ := step_moves (Γ := Γ) ctx hks he
      exact ⟨hkt, e', he', hcalls ▸ hg.moves hc hm⟩)
    (s := ⟨epochs, modules, []⟩) ⟨hk, e₀, h₀, .inl ⟨rfl, rfl⟩⟩ blocks
  obtain ⟨hks, e, he, hg⟩ := hinv
  obtain ⟨-, e', l, hm, he', -⟩ := step_moves (Γ := Γ) ctx hks he
  exact ⟨e, he, hg, e', l, he', hm⟩

/-- One module, whose hooks panic. -/
def oneHook : Env Unit := ⟨[⟨str "tier", fun _ _ _ _ => crash "no", fun _ _ _ _ => crash "no"⟩], fun _ => false⟩

/-- An epoch of 60 seconds that starts at second 100, with a number and a start time that were never used. -/
def minute (currentEpoch : Int) (sec : Int) : EpochInfo := ⟨str "minute", ⟨100, 0⟩, 60000000000, currentEpoch, ⟨sec, 0⟩, false, 0⟩

/-- A long halt: the blocks at seconds 100, 300 and 301 start the periods 1, 2 and 3. -/
theorem epochs_on_grid_after_halt :
    let s := Run.run (step oneHook) ⟨KVStore.empty.set (str "minute") (minute 0 0), (), []⟩
      [⟨⟨50, 0⟩, 1⟩, ⟨⟨100, 0⟩, 2⟩, ⟨⟨300, 0⟩, 3⟩]
    ∃ e, s.epochs.get (str "minute") = some e ∧ OnGrid oneHook (minute 0 0) e (s.callsOf (str "minute")) ∧
      ∃ e' l, (step oneHook s ⟨⟨301, 0⟩, 4⟩).epochs.get (str "minute") = some e' ∧ Moves ⟨⟨301, 0⟩, 4⟩ e e' l :=
  epochs_on_grid _ () (All.empty.set rfl) (minute 0 0) (get_set_self _ _ _) rfl _ _

/-- The number and the start time that an epoch is added with are kept until its first start, and the number may fall then. The
first start need not be after the end that these give. -/
theorem epochs_on_grid_false :
    let s (e : EpochInfo) (blocks : List Ctx) :=
      (Run.run (step oneHook) ⟨KVStore.empty.set (str "minute") e, (), []⟩ blocks).epochs.get (str "minute")
    ((minute 5 0).validate = .ok () ∧ s (minute 5 0) [⟨⟨50, 0⟩, 1⟩] = some (minute 5 0) ∧
      (minute 5 0).currentEpochStartTime.nanos ≠ (minute 5 0).startTime.nanos + (5 - 1) * (minute 5 0).duration ∧
      (s (minute 5 0) [⟨⟨50, 0⟩, 1⟩, ⟨⟨100, 0⟩, 2⟩]).map (·.currentEpoch) = some 1) ∧
    (minute 0 100).validate = .ok () ∧ (s (minute 0 100) [⟨⟨100, 0⟩, 1⟩]).map (·.currentEpoch) = some 1 ∧
      (⟨100, 0⟩ : Time).after ((minute 0 100).currentEpochStartTime.add (minute 0 100).duration) = false := by
  decide +kernel

end Vera.Epochs
