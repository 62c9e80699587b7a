import Vera.Lib.Effect
import Vera.Lib.KVStore

/-! # Loops over the entries of a store

The rule for a loop that is given the entries of a store, one after the other, and builds the store again. -/

namespace Eff

open KVStore

variable {σ ε α K V : Type} [Ord K] [DecidableEq K] [Std.TransOrd K] [Std.LawfulEqOrd K]

/-- A loop whose turns succeed and add their entries builds the store the entries came from: `R store s` says that `s` holds the
store so far, in which the entry of the turn is missing. -/
theorem forEach_restores (src : KVStore K V) (g : K × V → α) (f : α → Eff σ ε Unit) (R : KVStore K V → σ → Prop) {s : σ}
    (hs : R .empty s) (htu : ∀ key v, src.get key = some v → ∀ store s, store.get key = none → R store s →
      ∃ t, (f (g (key, v))).Succeeds s () t ∧ R (store.set key v) t) :
    ∃ t, (forEach (src.entries.map g) f).Succeeds s () t ∧ R src t := by
  have hst : ∀ before e after, src.entries = before ++ e :: after → ∀ s, R (KVStore.empty.setAll before) s →
      ∃ t, (f (g e)).Succeeds s () t ∧ R (KVStore.empty.setAll (before ++ [e])) t := by
    intro before e after hsp s hb
    have hstored : src.get e.1 = some e.2 := src.mem_entries.1 (by simp [hsp])
    rw [setAll_append_singleton]
    exact htu e.1 e.2 hstored _ s (get_setAll_of_entries hsp) hb
  obtain ⟨t, hl, ht⟩ := forEach_ok_of src.entries (fun e => f (g e))
    (fun before s => R (KVStore.empty.setAll before) s) hs hst
  rw [setAll_entries] at ht
  exact ⟨t, by rwa [forEach_map], ht⟩

end Eff
