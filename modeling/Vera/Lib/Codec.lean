import Mathlib.Data.List.Forall2
import Vera.Lib.Bytes
import Vera.Lib.Effect

/-!
# Readers

A reader takes a value from the front of a byte string and leaves the rest. It inverts a writer if it takes exactly what was
written of the value it returns, and such readers can be put together. A reader that works on another state, such as a byte
string with a position in it, simulates one on the bytes that are left.
-/

namespace Codec

open Eff List

variable {ε α β : Type}

/-- Reading a value takes exactly what was written of it from the front of the bytes; the values that can be read are the
valid ones. -/
def Inverts (read : Eff Bytes ε α) (write : α → Bytes) (valid : α → Prop) : Prop :=
  ∀ s a rest, read.Succeeds s a rest ↔ valid a ∧ s = write a ++ rest

section Inverts

variable {read : Eff Bytes ε α} {write : α → Bytes} {valid : α → Prop}

theorem Inverts.congr {write' : α → Bytes} {valid' : α → Prop} (h : Inverts read write valid)
    (hv : ∀ a, valid a ↔ valid' a) (hw : ∀ a, valid' a → write a = write' a) : Inverts read write' valid' := by
  intro s a rest
  rw [h s a rest, hv a]
  constructor
  · rintro ⟨ha, rfl⟩
    exact ⟨ha, by rw [hw a ha]⟩
  · rintro ⟨ha, rfl⟩
    exact ⟨ha, by rw [hw a ha]⟩

/-- A value that is computed from the one read. -/
theorem Inverts.map {f : α → β} {write' : β → Bytes} {valid' : β → Prop} (h : Inverts read write valid)
    (hto : ∀ a, valid a → valid' (f a) ∧ write' (f a) = write a) (hf : ∀ b, valid' b → ∃ a, valid a ∧ f a = b) :
    Inverts (read >>= fun a => pure (f a)) write' valid' := by
  intro s b rest
  rw [bind_ok]
  constructor
  · rintro ⟨a, t, hr, hp⟩
    obtain ⟨rfl, rfl⟩ := pure_ok.1 hp
    obtain ⟨ha, rfl⟩ := (h s a rest).1 hr
    exact ⟨(hto a ha).1, by rw [(hto a ha).2]⟩
  · rintro ⟨hb, rfl⟩
    obtain ⟨a, ha, rfl⟩ := hf b hb
    refine ⟨a, rest, (h _ a rest).2 ⟨ha, ?_⟩, pure_ok.2 ⟨rfl, rfl⟩⟩
    rw [(hto a ha).2]

/-- A value that is checked after it was read. -/
theorem Inverts.guard (h : Inverts read write valid) (c : α → Prop) [DecidablePred c] (e : α → ε) :
    Inverts (read >>= fun a => Eff.require (c a) (e a) >>= fun _ => pure a) write fun a => valid a ∧ c a := by
  intro s a rest
  rw [bind_ok]
  constructor
  · rintro ⟨b, t, hr, hcheck⟩
    obtain ⟨hc, hp⟩ := require_bind_ok.1 hcheck
    obtain ⟨rfl, rfl⟩ := pure_ok.1 hp
    obtain ⟨ha, hs⟩ := (h s a rest).1 hr
    exact ⟨⟨ha, hc⟩, hs⟩
  · rintro ⟨⟨ha, hc⟩, hs⟩
    exact ⟨a, rest, (h s a rest).2 ⟨ha, hs⟩, require_bind_ok.2 ⟨hc, pure_ok.2 ⟨rfl, rfl⟩⟩⟩

/-- A value behind a head that says how to read it; the head of a value is known from the value. -/
theorem Inverts.bind {f : α → Eff Bytes ε β} {write' : α → β → Bytes} {valid' : α → β → Prop} (h : Inverts read write valid)
    (hf : ∀ a, Inverts (f a) (write' a) (valid' a)) (head : β → α) (hh : ∀ a b, valid' a b → head b = a) :
    Inverts (read >>= f) (fun b => write (head b) ++ write' (head b) b) fun b => valid (head b) ∧ valid' (head b) b := by
  intro s b rest
  rw [bind_ok]
  constructor
  · rintro ⟨a, t, hr, hne⟩
    obtain ⟨ha, rfl⟩ := (h s a t).1 hr
    obtain ⟨hb, rfl⟩ := (hf a t b rest).1 hne
    obtain rfl := hh a b hb
    exact ⟨⟨ha, hb⟩, (append_assoc _ _ _).symm⟩
  · rintro ⟨⟨ha, hb⟩, rfl⟩
    exact ⟨head b, _, (h _ _ _).2 ⟨ha, append_assoc _ _ _⟩, (hf (head b) _ b rest).2 ⟨hb, rfl⟩⟩

/-- A value without any bytes. -/
theorem inverts_pure (a : α) : Inverts (pure a : Eff Bytes ε α) (fun _ => []) fun b => b = a := by
  intro s b rest
  rw [pure_ok]
  constructor
  · rintro ⟨rfl, rfl⟩
    exact ⟨rfl, rfl⟩
  · rintro ⟨rfl, rfl⟩
    exact ⟨rfl, rfl⟩

end Inverts

/-! ## Readers one after the other -/

/-- Read values one after the other. -/
def readEach {σ : Type} (read : β → Eff σ ε α) : List β → Eff σ ε (List α)
  | [] => pure []
  | b :: rest => do
    let a ← read b
    let others ← readEach read rest
    pure (a :: others)

/-- The values read are those whose bytes stand one after the other. -/
theorem inverts_readEach {read : β → Eff Bytes ε α} {write : α → Bytes} {valid : β → α → Prop}
    (h : ∀ b, Inverts (read b) write (valid b)) (bs : List β) :
    Inverts (readEach read bs) (fun values => values.flatMap write) (List.Forall₂ valid bs) := by
  induction bs with
  | nil =>
    refine (inverts_pure []).congr (fun values => ?_) fun values hv => ?_
    · rw [forall₂_nil_left_iff]
    · rw [forall₂_nil_left_iff.1 hv]
      rfl
  | cons b rest ih =>
    intro s values left
    constructor
    · intro hr
      obtain ⟨a, t, ha, hr⟩ := bind_ok.1 hr
      obtain ⟨others, t', hot, hp⟩ := bind_ok.1 hr
      obtain ⟨rfl, rfl⟩ := pure_ok.1 hp
      obtain ⟨hva, rfl⟩ := (h b s a t).1 ha
      obtain ⟨hrest, rfl⟩ := (ih t others left).1 hot
      exact ⟨.cons hva hrest, (append_assoc _ _ _).symm⟩
    · rintro ⟨hv, rfl⟩
      cases hv with
      | @cons _ a _ others hva hrest =>
        refine bind_ok.2 ⟨a, others.flatMap write ++ left, (h b _ a _).2 ⟨hva, append_assoc _ _ _⟩, ?_⟩
        exact bind_ok.2 ⟨others, left, (ih _ others left).2 ⟨hrest, rfl⟩, pure_ok.2 ⟨rfl, rfl⟩⟩

/-! ## Calls that simulate each other -/

section Simulation

variable {σ τ : Type} (view : σ → τ) (inv : σ → Prop)

/-- A call on one state ends as a call on another does, without a panic, and leaves the state that the other sees. -/
def Simulates (x : Eff σ ε α) (y : Eff τ ε α) : Prop :=
  ∀ s, inv s → ∃ o s', x s = (o, s') ∧ y (view s) = (o, view s') ∧ inv s' ∧ ∀ m, o ≠ .panic m

variable {view inv}

theorem simulates_pure (a : α) : Simulates (ε := ε) view inv (pure a) (pure a) :=
  fun s hs => ⟨.ok a, s, rfl, rfl, hs, nofun⟩

theorem simulates_fail (e : ε) : Simulates (α := α) view inv (Eff.fail e) (Eff.fail e) :=
  fun s hs => ⟨.err e, s, rfl, rfl, hs, nofun⟩

theorem simulates_require (c : Prop) [Decidable c] (e : ε) : Simulates view inv (Eff.require c e) (Eff.require c e) := by
  unfold Eff.require
  split
  · exact simulates_pure ()
  · exact simulates_fail e

theorem Simulates.bind {x : Eff σ ε α} {y : Eff τ ε α} {f : α → Eff σ ε β} {g : α → Eff τ ε β} (h : Simulates view inv x y)
    (hf : ∀ a, Simulates view inv (f a) (g a)) : Simulates view inv (x >>= f) (y >>= g) := by
  intro s hs
  obtain ⟨o, s', hx, hy, hin, hca⟩ := h s hs
  cases o with
  | ok a =>
    rw [Eff.Succeeds.bind_eq hx, Eff.Succeeds.bind_eq hy]
    exact hf a s' hin
  | err e => exact ⟨.err e, s', bind_of_err hx, bind_of_err hy, hin, nofun⟩
  | panic m => exact absurd rfl (hca m)

theorem simulates_readEach {read : β → Eff σ ε α} {read' : β → Eff τ ε α} (h : ∀ b, Simulates view inv (read b) (read' b))
    (bs : List β) : Simulates view inv (readEach read bs) (readEach read' bs) := by
  induction bs with
  | nil => exact simulates_pure []
  | cons b rest ih => exact (h b).bind fun a => ih.bind fun others => simulates_pure (a :: others)

end Simulation

end Codec
