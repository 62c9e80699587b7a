import Mathlib.Data.List.Sort
import Mathlib.Logic.Relation
import Vera.Lib.Words

/-!
# Sorting with a comparison that is only a partial order

What a stable sort does with every comparison, and when what is written of the sorted list does not depend on the order of the
list: exactly when two elements that cannot be compared may be written in either order.
-/

namespace StableSort

open List

variable {T : Type}

/-- Elements of a list that are all less than the others. -/
def Splits (less : T → T → Bool) (l : List T) (low : T → Bool) : Prop :=
  ∀ x ∈ l, ∀ y ∈ l, low x = true → low y = false → less x y = true ∧ less y x = false

/-- The low elements of a list come before the others. -/
def LowFirst (low : T → Bool) (l : List T) : Prop := l.Pairwise fun x y => low y = true → low x = true

/-- What a stable sort does: it puts the elements in ascending order and keeps the order of those that are not to be exchanged. -/
structure Laws (sort : (T → T → Bool) → List T → List T) : Prop where
  perm : ∀ less l, (sort less l).Perm l
  /-- If some elements are all less than the others, they come first. -/
  ascending : ∀ less l low, Splits less l low → LowFirst low (sort less l)
  /-- A list in which no element is less than an earlier one stays as it is. -/
  stable : ∀ less l, l.Pairwise (fun x y => less y x = false) → sort less l = l

/-! ## Insertion sort -/

section Insertion

variable {less : T → T → Bool} {low : T → Bool}

/-- An element is inserted after the low ones that are less, and before the others that are not. -/
theorem lowFirst_orderedInsert {x : T} {l : List T} (hs : Splits less (x :: l) low) (hl : LowFirst low l) :
    LowFirst low (l.orderedInsert (fun a b => less b a = false) x) := by
  induction l with
  | nil => exact pairwise_singleton _ _
  | cons b rest ih =>
    obtain ⟨hb, hrest⟩ := pairwise_cons.1 hl
    have hx : x ∈ x :: b :: rest := mem_cons_self
    have hbm : b ∈ x :: b :: rest := mem_cons_of_mem _ mem_cons_self
    by_cases hst : less b x = false
    · rw [orderedInsert_cons, if_pos hst]
      refine pairwise_cons.2 ⟨fun z hz hlo => ?_, hl⟩
      -- with a low element after it, the next one is low, and less than an element that is not
      have hbl : low b = true := by
        rcases mem_cons.1 hz with rfl | hz
        · exact hlo
        · exact hb z hz hlo
      by_contra hh
      rw [(hs b hbm x hx hbl (Bool.eq_false_iff.2 hh)).1] at hst
      cases hst
    · rw [orderedInsert_cons, if_neg hst]
      have hs' : Splits less (x :: rest) low := by
        have hsu : ∀ y ∈ x :: rest, y ∈ x :: b :: rest := fun y hy =>
          (mem_cons.1 hy).elim (fun h => h ▸ hx) fun h => mem_cons_of_mem _ (mem_cons_of_mem _ h)
        exact fun y hy z hz => hs y (hsu y hy) z (hsu z hz)
      refine pairwise_cons.2 ⟨fun z hz hlo => ?_, ih hs' hrest⟩
      rcases (mem_orderedInsert _).1 hz with rfl | hz
      · by_contra hh
        exact hst (hs z hx b hbm hlo (Bool.eq_false_iff.2 hh)).2
      · exact hb z hz hlo

/-- Insertion sort is a stable sort. -/
theorem laws_insertionSort : Laws fun (less : T → T → Bool) l => l.insertionSort fun a b => less b a = false where
  perm less l := perm_insertionSort _ l
  ascending less l low hs := by
    induction l with
    | nil => exact List.Pairwise.nil
    | cons x rest ih =>
      have hsu : ∀ y ∈ x :: rest.insertionSort (fun a b => less b a = false), y ∈ x :: rest := by
        intro y hy
        rcases mem_cons.1 hy with rfl | hy
        · exact mem_cons_self
        · exact mem_cons_of_mem _ ((mem_insertionSort _).1 hy)
      refine lowFirst_orderedInsert (fun y hy z hz => hs y (hsu y hy) z (hsu z hz)) (ih ?_)
      exact fun y hy z hz => hs y (mem_cons_of_mem _ hy) z (mem_cons_of_mem _ hz)
  stable less l h := h.insertionSort_eq

end Insertion

/-! ## Lists that keep to every split -/

section Written

variable {β : Type} (less : T → T → Bool) (word : T → List β)

/-- Two elements can be compared, or it does not matter which of them is written first. -/
def Settled (l : List T) : Prop := ∀ a ∈ l, ∀ b ∈ l,
  less a b = true ∨ less b a = true ∨ word a ++ word b = word b ++ word a

/-- The elements that are less than the others come first, however the list is split in two. -/
def KeepsToSplits (l : List T) : Prop := ∀ low, Splits less l low → LowFirst low l

variable {less} {word} {l : List T}

/-- The low elements, and then the others. -/
theorem LowFirst.eq_append {low : T → Bool} (h : LowFirst low l) : l = l.filter low ++ l.filter fun x => !low x := by
  induction l with
  | nil => rfl
  | cons x rest ih =>
    obtain ⟨hx, hrest⟩ := pairwise_cons.1 h
    cases hl : low x with
    | true =>
      rw [filter_cons_of_pos hl, filter_cons_of_neg (by simp [hl]), cons_append, ← ih hrest]
    | false =>
      have hnone : rest.filter low = [] := by
        refine filter_eq_nil_iff.2 fun y hy hyl => ?_
        rw [hx y hy hyl] at hl
        cases hl
      have hrest := ih hrest
      rw [hnone, nil_append] at hrest
      rw [filter_cons_of_neg (by simp [hl]), hnone, nil_append, filter_cons_of_pos (by simp [hl]), ← hrest]

/-- Both parts of a split keep to their splits, each of which gives one of the list. -/
theorem KeepsToSplits.filter (h : KeepsToSplits less l) {low : T → Bool} (hs : Splits less l low) :
    KeepsToSplits less (l.filter low) ∧ KeepsToSplits less (l.filter fun x => !low x) := by
  constructor
  · intro inner hin
    have ha : LowFirst (fun x => low x && inner x) l := by
      refine h _ fun x hx y hy hxl hyl => ?_
      obtain ⟨hxo, hxi⟩ := Bool.and_eq_true_iff.1 hxl
      cases hyo : low y with
      | false => exact hs x hx y hy hxo hyo
      | true =>
        rw [hyo, Bool.true_and] at hyl
        exact hin x (mem_filter.2 ⟨hx, hxo⟩) y (mem_filter.2 ⟨hy, hyo⟩) hxi hyl
    refine (List.Pairwise.filter low ha).imp_of_mem fun {x y} hx hy hxy hyi => ?_
    exact (Bool.and_eq_true_iff.1 (hxy (Bool.and_eq_true_iff.2 ⟨(mem_filter.1 hy).2, hyi⟩))).2
  · intro inner hin
    have ha : LowFirst (fun x => low x || inner x) l := by
      refine h _ fun x hx y hy hxl hyl => ?_
      obtain ⟨hyo, hyi⟩ := Bool.or_eq_false_iff.1 hyl
      cases hxo : low x with
      | true => exact hs x hx y hy hxo hyo
      | false =>
        rw [hxo, Bool.false_or] at hxl
        exact hin x (mem_filter.2 ⟨hx, by simp [hxo]⟩) y (mem_filter.2 ⟨hy, by simp [hyo]⟩) hxl hyi
    refine (List.Pairwise.filter (fun x => !low x) ha).imp_of_mem fun {x y} hx hy hxy hyi => ?_
    rcases Bool.or_eq_true_iff.1 (hxy (Bool.or_eq_true_iff.2 (.inr hyi))) with hxo | hxi
    · have hxh := (mem_filter.1 hx).2
      rw [hxo] at hxh
      cases hxh
    · exact hxi

/-- A comparison that is a strict partial order, and less than what follows it where nothing is written. -/
structure Comparison (less : T → T → Bool) (word : T → List β) : Prop where
  asymm : ∀ x y, less x y = true → less y x = false
  trans : ∀ x y z, less x y = true → less y z = true → less x z = true
  empty : ∀ u x y, word u = [] → less x y = true → less u y = true

/-- Neither of two elements is less than the other, and something is written of both. -/
def Tied (less : T → T → Bool) (word : T → List β) (l : List T) (x y : T) : Prop :=
  y ∈ l ∧ word x ≠ [] ∧ word y ≠ [] ∧ less x y = false ∧ less y x = false

/-- If the order of two elements matters, there is a split with one of them on each side: the elements that are tied to the lesser
one, directly or through others, and what is less than these. -/
theorem exists_split (hl : Comparison less word) (hs : Settled less word l) {a b : T} (ha : a ∈ l) (hb : b ∈ l)
    (hab : less a b = true) (hne : word a ++ word b ≠ word b ++ word a) :
    ∃ low : T → Bool, Splits less l low ∧ low a = true ∧ low b = false := by
  classical
  have haw : word a ≠ [] := fun h => hne (by rw [h, nil_append, append_nil])
  have hbw : word b ≠ [] := fun h => hne (by rw [h, nil_append, append_nil])
  -- what is tied to an element commutes with it, and so does what is tied to that
  have hco : ∀ z, Relation.ReflTransGen (Tied less word l) a z → z ∈ l ∧ word z ≠ [] ∧ word a ++ word z = word z ++ word a := by
    intro z hz
    induction hz with
    | refl => exact ⟨ha, haw, rfl⟩
    | tail _ ht ih =>
      obtain ⟨hmem, hxw, hyw, hxy, hyx⟩ := ht
      refine ⟨hmem, hyw, Words.append_comm_trans hxw ih.2.2 ?_⟩
      rcases hs _ ih.1 _ hmem with h | h | h
      · exact absurd h (Bool.eq_false_iff.1 hxy)
      · exact absurd h (Bool.eq_false_iff.1 hyx)
      · exact h
  -- what is not tied to these and greater than the first is greater than all of them
  have habo : ∀ y ∈ l, word y ≠ [] → ¬Relation.ReflTransGen (Tied less word l) a y → less a y = true →
      ∀ z, Relation.ReflTransGen (Tied less word l) a z → less z y = true := by
    intro y hy hyw hap hay z hz
    induction hz with
    | refl => exact hay
    | @tail c z hc ht ih =>
      by_contra hzy
      have hyz : less y z = true := by
        by_contra hyz
        exact hap ((hc.tail ht).tail ⟨hy, ht.2.2.1, hyw, Bool.eq_false_iff.2 hzy, Bool.eq_false_iff.2 hyz⟩)
      have hcz := hl.trans c y z ih hyz
      rw [ht.2.2.2.1] at hcz
      cases hcz
  let High (z : T) : Prop := word z ≠ [] ∧ ¬Relation.ReflTransGen (Tied less word l) a z ∧ less a z = true
  have hal : ¬High a := fun h => h.2.1 .refl
  have hbh : High b := ⟨hbw, fun h => hne (hco b h).2.2, hab⟩
  refine ⟨fun z => decide ¬High z, ?_, decide_eq_true hal, decide_eq_false (not_not.2 hbh)⟩
  intro x hx y hy hxl hyh
  have hxn := of_decide_eq_true hxl
  obtain ⟨hyw, hya, hay⟩ := not_not.1 (of_decide_eq_false hyh)
  have hxy : less x y = true := by
    by_cases hxw : word x = []
    · exact hl.empty x a y hxw hay
    by_cases hxt : Relation.ReflTransGen (Tied less word l) a x
    · exact habo y hy hyw hya hay x hxt
    · have hax : less a x = false := Bool.eq_false_iff.2 fun h => hxn ⟨hxw, hxt, h⟩
      have hxa : less x a = true := by
        by_contra hxa
        exact hxt (.single ⟨hx, haw, hxw, hax, Bool.eq_false_iff.2 hxa⟩)
      exact hl.trans x a y hxa hay
  exact ⟨hxy, hl.asymm x y hxy⟩

/-- Two arrangements of a list that keep to its splits are written alike. -/
theorem KeepsToSplits.same_word (hles : Comparison less word) {r : List T} (hse : Settled less word l) (hp : l.Perm r)
    (hl : KeepsToSplits less l) (hr : KeepsToSplits less r) : l.flatMap word = r.flatMap word := by
  induction hn : l.length using Nat.strong_induction_on generalizing l r with
  | _ n ih =>
  by_cases hco : ∀ a ∈ l, ∀ b ∈ l, word a ++ word b = word b ++ word a
  · exact Words.flatMap_perm hp hco
  · push Not at hco
    obtain ⟨a, ha, b, hb, hne⟩ := hco
    obtain ⟨low, hs, x, y, hx, hy, hxl, hyh⟩ : ∃ low : T → Bool, Splits less l low ∧
        ∃ x y, x ∈ l ∧ y ∈ l ∧ low x = true ∧ low y = false := by
      rcases hse a ha b hb with hab | hba | heq
      · obtain ⟨low, hs, hal, hbh⟩ := exists_split hles hse ha hb hab hne
        exact ⟨low, hs, a, b, ha, hb, hal, hbh⟩
      · obtain ⟨low, hs, hbl, hah⟩ := exists_split hles hse hb ha hba hne.symm
        exact ⟨low, hs, b, a, hb, ha, hbl, hah⟩
      · exact absurd heq hne
    have hs' : Splits less r low := fun u hu v hv => hs u (hp.mem_iff.2 hu) v (hp.mem_iff.2 hv)
    obtain ⟨hlo, hh⟩ := hl.filter hs
    obtain ⟨hlo', hh'⟩ := hr.filter hs'
    have hsu : ∀ p : T → Bool, Settled less word (l.filter p) := fun p u hu v hv =>
      hse u (mem_filter.1 hu).1 v (mem_filter.1 hv).1
    -- neither part is the whole list, because each lacks one of the two elements
    have hsh : (l.filter low).length < n := by
      rw [← hn]
      exact length_filter_lt_length_iff_exists.2 ⟨y, hy, by simp [hyh]⟩
    have hsh' : (l.filter fun x => !low x).length < n := by
      rw [← hn]
      exact length_filter_lt_length_iff_exists.2 ⟨x, hx, by simp [hxl]⟩
    have hf := ih _ hsh (hsu low) (hp.filter low) hlo hlo' rfl
    have hsec := ih _ hsh' (hsu fun x => !low x) (hp.filter _) hh hh' rfl
    rw [(hl low hs).eq_append, (hr low hs').eq_append, flatMap_append, flatMap_append, hf, hsec]

/-! ## The order of the list -/

section Arrangement

variable {κ : Type} [LinearOrder κ]

/-- What is less than one of two elements, in the order of the keys. -/
def below (less : T → T → Bool) (key : T → κ) (a b : T) (rest : List T) : List T :=
  (rest.filter fun x => less x a || less x b).insertionSort fun x y => key x ≤ key y

/-- What is less than neither of them. -/
def above (less : T → T → Bool) (key : T → κ) (a b : T) (rest : List T) : List T :=
  (rest.filter fun x => !(less x a || less x b)).insertionSort fun x y => key x ≤ key y

variable {key : T → κ}

theorem below_comm (a b : T) (rest : List T) : below less key b a rest = below less key a b rest := by
  unfold below
  rw [show (fun x => less x b || less x a) = fun x => less x a || less x b from funext fun x => Bool.or_comm _ _]

theorem above_comm (a b : T) (rest : List T) : above less key b a rest = above less key a b rest := by
  unfold above
  rw [show (fun x => !(less x b || less x a)) = fun x => !(less x a || less x b) from funext fun x => by rw [Bool.or_comm]]

theorem perm_arrangement (less : T → T → Bool) (key : T → κ) (a b : T) (rest : List T) :
    (below less key a b rest ++ a :: b :: above less key a b rest).Perm (a :: b :: rest) := by
  have hp : (below less key a b rest ++ above less key a b rest).Perm rest :=
    ((perm_insertionSort _ _).append (perm_insertionSort _ _)).trans (filter_append_perm _ _)
  exact (perm_middle.trans (List.Perm.cons a perm_middle)).trans ((hp.cons b).cons a)

/-- Two elements that cannot be compared stand next to each other, after what is less than one of them and before the rest: no
element is less than an earlier one. -/
theorem pairwise_arrangement (hke : ∀ x y, less x y = true → key x < key y) (hl : Comparison less word) {a b : T}
    (hab : less a b = false) (hba : less b a = false) (rest : List T) :
    (below less key a b rest ++ a :: b :: above less key a b rest).Pairwise fun x y => less y x = false := by
  have hs : ∀ part : List T, (part.insertionSort fun x y => key x ≤ key y).Pairwise fun x y => less y x = false := by
    intro part
    refine (pairwise_insertionSort (fun x y => key x ≤ key y) part).imp fun {x y} hle => ?_
    exact Bool.eq_false_iff.2 fun hlt => absurd (hke y x hlt) (not_lt.2 hle)
  have hir : ∀ x, less x x = false := fun x => Bool.eq_false_iff.2 fun h => absurd (hke x x h) (lt_irrefl _)
  have hb : ∀ x ∈ below less key a b rest, less x a = true ∨ less x b = true :=
    fun x hx => Bool.or_eq_true_iff.1 (mem_filter.1 ((mem_insertionSort _).1 hx)).2
  have ha : ∀ x ∈ above less key a b rest, less x a = false ∧ less x b = false := by
    intro x hx
    have hx := (mem_filter.1 ((mem_insertionSort _).1 hx)).2
    rw [Bool.not_eq_true'] at hx
    exact Bool.or_eq_false_iff.1 hx
  refine pairwise_append.2 ⟨hs _, pairwise_cons.2 ⟨?_, pairwise_cons.2 ⟨?_, hs _⟩⟩, ?_⟩
  · intro y hy
    rcases mem_cons.1 hy with rfl | hy
    · exact hba
    · exact (ha y hy).1
  · exact fun y hy => (ha y hy).2
  · intro x hx y hy
    -- what is less than an element below one of the two is below it as well
    have hnot : less y a = false ∧ less y b = false := by
      rcases mem_cons.1 hy with rfl | hy
      · exact ⟨hir y, hab⟩
      rcases mem_cons.1 hy with rfl | hy
      · exact ⟨hba, hir y⟩
      · exact ha y hy
    refine Bool.eq_false_iff.2 fun hyx => ?_
    rcases hb x hx with hxa | hxb
    · have hya := hl.trans y x a hyx hxa
      rw [hnot.1] at hya
      cases hya
    · have hyb := hl.trans y x b hyx hxb
      rw [hnot.2] at hyb
      cases hyb

end Arrangement

variable {sort : (T → T → Bool) → List T → List T} (laws : Laws sort)

include laws

/-- A sorted list keeps to its splits. -/
theorem Laws.keepsToSplits (l : List T) : KeepsToSplits less (sort less l) := by
  intro low hs
  have hmem : ∀ x ∈ l, x ∈ sort less l := fun x hx => (laws.perm less l).mem_iff.2 hx
  exact laws.ascending less l low fun x hx y hy => hs x (hmem x hx) y (hmem y hy)

/-- What is written of the sorted list depends on the order of the list exactly when two of its elements cannot be compared and
are not written alike in both orders. Of two elements that can be compared, the lesser one has the lesser key. -/
theorem Laws.same_word_iff (hl : Comparison less word) {κ : Type} [LinearOrder κ] {key : T → κ}
    (hke : ∀ x y, less x y = true → key x < key y) (l : List T) :
    (∀ l', l'.Perm l → (sort less l').flatMap word = (sort less l).flatMap word) ↔ Settled less word l := by
  classical
  constructor
  · intro hsame a ha b hb
    by_contra hnot
    push Not at hnot
    obtain ⟨hab, hba, hne⟩ := hnot
    have hab := Bool.eq_false_iff.2 hab
    have hba := Bool.eq_false_iff.2 hba
    have hd : b ≠ a := fun h => hne (by rw [h])
    have hrest : l.Perm (a :: b :: (l.erase a).erase b) :=
      (perm_cons_erase ha).trans (List.Perm.cons a (perm_cons_erase ((mem_erase_of_ne hd).2 hb)))
    generalize (l.erase a).erase b = rest at hrest
    -- the two arrangements with the elements next to each other stay as they are
    have hf := hsame _ ((perm_arrangement less key a b rest).trans hrest.symm)
    have hs := hsame _ (((perm_arrangement less key b a rest).trans (List.Perm.swap a b rest)).trans hrest.symm)
    rw [laws.stable less _ (pairwise_arrangement hke hl hab hba rest)] at hf
    rw [laws.stable less _ (pairwise_arrangement hke hl hba hab rest), below_comm, above_comm, ← hf] at hs
    simp only [flatMap_append, flatMap_cons] at hs
    rw [append_cancel_left_eq, ← append_assoc, ← append_assoc, append_cancel_right_eq] at hs
    exact hne hs.symm
  · intro hse l' hp
    have hmem : ∀ x ∈ sort less l', x ∈ l := fun x hx => hp.mem_iff.1 ((laws.perm less l').mem_iff.1 hx)
    refine KeepsToSplits.same_word hl ?_ ?_ (laws.keepsToSplits l') (laws.keepsToSplits l)
    · exact fun a ha b hb => hse a (hmem a ha) b (hmem b hb)
    · exact ((laws.perm less l').trans hp).trans (laws.perm less l).symm

end Written

end StableSort
