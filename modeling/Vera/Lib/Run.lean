import Mathlib.Algebra.Order.Ring.Int

/-! # Runs of a state machine

A machine is a step function, total because a refused input leaves the state as it was. A run folds a list of inputs; what
is asked of every step of a run is asked of its input and of the state before it. -/

namespace Run

open List

variable {σ α : Type} (step : σ → α → σ)

/-- The state after a list of inputs. -/
def run (s : σ) (inputs : List α) : σ := inputs.foldl step s

/-- Every step of the run meets a condition on the state before it and its input. -/
def AllSteps (P : σ → α → Prop) : σ → List α → Prop
  | _, [] => True
  | s, a :: rest => P s a ∧ AllSteps P (step s a) rest

instance AllSteps.decidable (P : σ → α → Prop) [∀ s a, Decidable (P s a)] :
    ∀ (s : σ) (inputs : List α), Decidable (AllSteps step P s inputs)
  | _, [] => .isTrue trivial
  | s, a :: rest =>
    have := AllSteps.decidable P (step s a) rest
    inferInstanceAs (Decidable (P s a ∧ AllSteps step P (step s a) rest))

@[simp] theorem run_nil (s : σ) : run step s [] = s := rfl

@[simp] theorem run_cons (s : σ) (a : α) (rest : List α) : run step s (a :: rest) = run step (step s a) rest := rfl

theorem run_append (s : σ) (xs ys : List α) : run step s (xs ++ ys) = run step (run step s xs) ys :=
  foldl_append

variable {P Q : σ → α → Prop} {s : σ} {inputs : List α} {I : σ → Prop} {mark : σ → α → Bool} {a : α}

theorem allSteps_append {xs ys : List α} :
    AllSteps step P s (xs ++ ys) ↔ AllSteps step P s xs ∧ AllSteps step P (run step s xs) ys := by
  induction xs generalizing s with
  | nil => simp [AllSteps]
  | cons a rest ih => simp [AllSteps, ih, and_assoc]

/-- The invariant rule: what every step that meets the condition preserves, every run of such steps preserves. -/
theorem run_induction {Inv : σ → Prop} (hs : ∀ s a, Inv s → P s a → Inv (step s a))
    (hP : AllSteps step P s inputs) (h : Inv s) : Inv (run step s inputs) := by
  induction inputs generalizing s with
  | nil => exact h
  | cons a rest ih => exact ih hP.2 (hs s a h hP.1)

/-- What every step preserves, every run preserves. -/
theorem run_invariant (hs : ∀ s a, I s → I (step s a)) (h : I s) (inputs : List α) : I (run step s inputs) := by
  induction inputs generalizing s with
  | nil => exact h
  | cons a rest ih => exact ih (hs s a h)

/-- The invariant rule for steps: if every step that meets the condition `P` preserves the invariant, and meets `Q` where the
invariant holds, then every step of a run of such steps meets `Q`. -/
theorem allSteps_induction (hs : ∀ s a, I s → P s a → I (step s a) ∧ Q s a)
    (hP : AllSteps step P s inputs) (h : I s) : AllSteps step Q s inputs := by
  induction inputs generalizing s with
  | nil => exact trivial
  | cons a rest ih => exact ⟨(hs s a h hP.1).2, ih hP.2 (hs s a h hP.1).1⟩

/-- Where an invariant holds that every step preserves and that gives `Q`, every step of a run meets `Q`. -/
theorem allSteps_invariant (hs : ∀ s a, I s → I (step s a) ∧ Q s a) (h : I s)
    (inputs : List α) : AllSteps step Q s inputs := by
  induction inputs generalizing s with
  | nil => exact trivial
  | cons a rest ih => exact ⟨(hs s a h).2, ih (hs s a h).1⟩

/-- What holds of every input of a run is met by every step. -/
theorem allSteps_of_forall {P : α → Prop} (h : ∀ a ∈ inputs, P a) (s : σ) : AllSteps step (fun _ a => P a) s inputs := by
  induction inputs generalizing s with
  | nil => exact trivial
  | cons a rest ih => exact ⟨h a mem_cons_self, ih (fun b hb => h b (mem_cons_of_mem _ hb)) _⟩

/-- Every step of a run takes one of its inputs. -/
theorem allSteps_mem (h : AllSteps step P s inputs) : AllSteps step (fun s a => P s a ∧ a ∈ inputs) s inputs := by
  have hs : ∀ {t rest}, AllSteps step P t rest → (∀ a ∈ rest, a ∈ inputs) →
      AllSteps step (fun s a => P s a ∧ a ∈ inputs) t rest := by
    intro t rest
    induction rest generalizing t with
    | nil => exact fun _ _ => trivial
    | cons a rest ih =>
      intro h hmem
      exact ⟨⟨h.1, hmem a mem_cons_self⟩, ih h.2 fun b hb => hmem b (mem_cons_of_mem _ hb)⟩
  exact hs h fun _ ha => ha

/-- The rule for a property `A` that a run keeps exactly as long as its steps meet a condition. In states with an invariant, `C`
gives `A` and is kept by the steps that meet the condition, and the others lose `A`. -/
theorem forall_take_iff_allSteps {A C : σ → Prop} (hin : ∀ s a, I s → I (step s a))
    (hg : ∀ s, I s → C s → A s) (hke : ∀ s a, I s → C s → P s a → C (step s a))
    (hl : ∀ s a, I s → C s → A (step s a) → P s a) (hs : I s) (hc : C s) (inputs : List α) :
    (∀ n, A (run step s (inputs.take n))) ↔ AllSteps step P s inputs := by
  induction inputs generalizing s with
  | nil => exact iff_of_true (fun n => by rw [take_nil]; exact hg s hs hc) trivial
  | cons a rest ih =>
    constructor
    · intro h
      have hm := hl s a hs hc (h 1)
      exact ⟨hm, (ih (hin s a hs) (hke s a hs hc hm)).1 fun n => h (n + 1)⟩
    · intro h n
      cases n with
      | zero => exact hg s hs hc
      | succ n => exact (ih (hin s a hs) (hke s a hs hc h.1)).2 h.2 n

/-- The budget rule: if a step is taken exactly when its cost is at most what is left, and then lowers what is left by it, all
steps of a run are taken exactly when their costs sum to at most what is left at first. -/
theorem allSteps_iff_sum_le {Left : σ → Nat → Prop} {Fine : α → Prop} {cost : α → Nat}
    (ht : ∀ s left a, Left s left → Fine a → (P s a ↔ cost a ≤ left))
    (hl : ∀ s left a, Left s left → Fine a → cost a ≤ left → Left (step s a) (left - cost a)) {left : Nat}
    (h : Left s left) (hf : ∀ a ∈ inputs, Fine a) :
    AllSteps step P s inputs ↔ (inputs.map cost).sum ≤ left := by
  induction inputs generalizing s left with
  | nil => simp [AllSteps]
  | cons a rest ih =>
    have ha := hf a mem_cons_self
    rw [AllSteps, ht s left a h ha, map_cons, sum_cons]
    by_cases hco : cost a ≤ left
    · rw [ih (hl s left a h ha hco) fun b hb => hf b (mem_cons_of_mem _ hb)]
      omega
    · simp only [hco, false_and, false_iff]
      omega

/-! ### What a run spends -/

/-- The sum of what the steps of a run cost. -/
def total (cost : σ → α → Int) : σ → List α → Int
  | _, [] => 0
  | s, a :: rest => cost s a + total cost (step s a) rest

/-- The spending rule: if what is left is never negative and every step lowers it by its cost, a run costs at most what is
left at first. -/
theorem total_le {cost : σ → α → Int} {L : σ → Int → Prop} (hno : ∀ s left, L s left → 0 ≤ left)
    (hs : ∀ s left a, L s left → L (step s a) (left - cost s a)) {left : Int} (h : L s left) (inputs : List α) :
    total step cost s inputs ≤ left := by
  induction inputs generalizing s left with
  | nil => exact hno s left h
  | cons a rest ih =>
    have hrest := ih (hs s left a h)
    rw [total]
    omega

/-! ### How often something happens -/

/-- How many steps of the run are marked. -/
def count (mark : σ → α → Bool) : σ → List α → Nat
  | _, [] => 0
  | s, a :: rest => (if mark s a then 1 else 0) + count mark (step s a) rest

variable {step}

theorem count_cons_of_mark (h : mark s a = true) (rest : List α) :
    count step mark s (a :: rest) = 1 + count step mark (step s a) rest := by
  rw [count, h]
  rfl

theorem count_cons_of_not_mark (h : mark s a = false) (rest : List α) :
    count step mark s (a :: rest) = count step mark (step s a) rest := by
  rw [count, h]
  exact Nat.zero_add _

/-- What marks more steps counts more. -/
theorem count_le_count {mark' : σ → α → Bool} (h : ∀ s a, mark s a = true → mark' s a = true) (s : σ)
    (inputs : List α) : count step mark s inputs ≤ count step mark' s inputs := by
  induction inputs generalizing s with
  | nil => exact Nat.le_refl 0
  | cons a rest ih =>
    cases hm : mark s a with
    | true =>
      rw [count_cons_of_mark hm, count_cons_of_mark (h s a hm)]
      exact Nat.add_le_add_left (ih (step s a)) 1
    | false =>
      rw [count_cons_of_not_mark hm, count]
      exact Nat.le_trans (ih (step s a)) (Nat.le_add_left _ _)

/-- If nothing is marked once the state is spent, and a spent state stays spent, nothing is marked in a run. -/
theorem count_eq_zero {Spent : σ → Prop}
    (hke : ∀ s a, P s a → Spent s → Spent (step s a)) (hnone : ∀ s a, P s a → Spent s → mark s a = false)
    (hP : AllSteps step P s inputs) (hs : Spent s) : count step mark s inputs = 0 := by
  induction inputs generalizing s with
  | nil => rfl
  | cons a rest ih =>
    rw [count, hnone s a hP.1 hs, ih hP.2 (hke s a hP.1 hs)]
    rfl

/-- If a marked step spends the state, at most one step of a run is marked. -/
theorem count_le_one {Spent : σ → Prop}
    (hs : ∀ s a, P s a → mark s a = true → Spent (step s a)) (hke : ∀ s a, P s a → Spent s → Spent (step s a))
    (hnone : ∀ s a, P s a → Spent s → mark s a = false) (hP : AllSteps step P s inputs) :
    count step mark s inputs ≤ 1 := by
  induction inputs generalizing s with
  | nil => exact Nat.zero_le 1
  | cons a rest ih =>
    rw [count]
    cases hm : mark s a with
    | true =>
      rw [count_eq_zero hke hnone hP.2 (hs s a hP.1 hm)]
      exact Nat.le_refl 1
    | false =>
      have := ih hP.2
      simpa using this

end Run
