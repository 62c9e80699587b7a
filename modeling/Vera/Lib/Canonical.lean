import Vera.Lib.Bytes

/-! # Length-prefixed encoding

Fields laid end to end: numbers as big-endian bytes of a fixed width, strings behind their length in four bytes. A string
whose length does not fit cannot be written. What is written can be cut into fields of given kinds in one way only. -/

namespace Canonical

open List

/-- The kinds of fields. -/
inductive Kind where
  | byte
  | u32
  | u64
  | bytes
  | count
  deriving Repr, DecidableEq

/-- A field; a `count` is the number of elements that follow. -/
inductive Field where
  | byte (b : UInt8)
  | u32 (n : UInt32)
  | u64 (n : UInt64)
  | bytes (s : Bytes)
  | count (n : Nat)
  deriving Repr, DecidableEq

namespace Field

/-- The kind of a field. -/
def kind : Field → Kind
  | byte _ => .byte
  | u32 _ => .u32
  | u64 _ => .u64
  | bytes _ => .bytes
  | count _ => .count

/-- Whether a length fits into four bytes. -/
def fits : Field → Bool
  | bytes s => s.length < 2 ^ 32
  | count n => n < 2 ^ 32
  | _ => true

/-- The bytes of a field. -/
def encode : Field → Bytes
  | byte b => [b]
  | u32 n => Bytes.bigEndian 4 n.toNat
  | u64 n => Bytes.bigEndian 8 n.toNat
  | bytes s => Bytes.bigEndian 4 s.length ++ s
  | count n => Bytes.bigEndian 4 n

end Field

/-- The bytes of a list of fields. -/
def encode (fields : List Field) : Bytes := fields.flatMap Field.encode

/-- A list of strings behind its length. -/
def strings (values : List Bytes) : List Field := .count values.length :: values.map .bytes

/-- A field that may be missing, behind a byte that says whether it is there. -/
def optional (value : Option (List Field)) : List Field :=
  match value with
  | none => [.byte 0]
  | some fields => .byte 1 :: fields

/-! ### Cutting the bytes into fields -/

namespace Field

variable {a b : Nat} {x y : Bytes}

/-- Two numbers with the same big-endian bytes are the same if both fit. -/
theorem bigEndian_inj {n : Nat} (ha : a < 256 ^ n) (hb : b < 256 ^ n)
    (h : Bytes.bigEndian n a = Bytes.bigEndian n b) : a = b := by
  have hv : a % 256 ^ n = b % 256 ^ n := by
    rw [← Bytes.ofBigEndian_bigEndian, ← Bytes.ofBigEndian_bigEndian, h]
  rwa [Nat.mod_eq_of_lt ha, Nat.mod_eq_of_lt hb] at hv

/-- A number of fixed width is cut off in one way only. -/
theorem bigEndian_append_inj {n : Nat} (ha : a < 256 ^ n) (hb : b < 256 ^ n)
    (h : Bytes.bigEndian n a ++ x = Bytes.bigEndian n b ++ y) : a = b ∧ x = y := by
  obtain ⟨hab, hxy⟩ := append_inj h (by simp)
  exact ⟨bigEndian_inj ha hb hab, hxy⟩

/-- A field is cut off in one way only. -/
theorem encode_append_inj {f g : Field} (hki : f.kind = g.kind) (hf : f.fits = true) (hg : g.fits = true)
    (h : f.encode ++ x = g.encode ++ y) : f = g ∧ x = y := by
  cases f with
  | byte a =>
    cases g with
    | byte b => simpa [encode] using h
    | _ => cases hki
  | u32 m =>
    cases g with
    | u32 n =>
      obtain ⟨hmn, hxy⟩ := bigEndian_append_inj (Nat.lt_of_lt_of_le m.toNat_lt (by decide))
        (Nat.lt_of_lt_of_le n.toNat_lt (by decide)) h
      exact ⟨by rw [UInt32.toNat_inj.1 hmn], hxy⟩
    | _ => cases hki
  | u64 m =>
    cases g with
    | u64 n =>
      obtain ⟨hmn, hxy⟩ := bigEndian_append_inj (Nat.lt_of_lt_of_le m.toNat_lt (by decide))
        (Nat.lt_of_lt_of_le n.toNat_lt (by decide)) h
      exact ⟨by rw [UInt64.toNat_inj.1 hmn], hxy⟩
    | _ => cases hki
  | bytes s =>
    cases g with
    | bytes t =>
      simp only [fits, decide_eq_true_eq] at hf hg
      simp only [encode, append_assoc] at h
      obtain ⟨hl, hrest⟩ := bigEndian_append_inj (Nat.lt_of_lt_of_le hf (by decide)) (Nat.lt_of_lt_of_le hg (by decide)) h
      obtain ⟨hst, hxy⟩ := append_inj hrest hl
      exact ⟨by rw [hst], hxy⟩
    | _ => cases hki
  | count m =>
    cases g with
    | count n =>
      simp only [fits, decide_eq_true_eq] at hf hg
      obtain ⟨hmn, hxy⟩ := bigEndian_append_inj (Nat.lt_of_lt_of_le hf (by decide)) (Nat.lt_of_lt_of_le hg (by decide)) h
      exact ⟨by rw [hmn], hxy⟩
    | _ => cases hki

end Field

/-- Two lists of fields are told apart by their bytes, whatever follows them. -/
def Apart (fs gs : List Field) : Prop := ∀ x y, encode fs ++ x = encode gs ++ y → fs = gs ∧ x = y

section Apart

variable {fs gs fs' gs' : List Field}

theorem Apart.cons {f g : Field} (hki : f.kind = g.kind) (hf : f.fits = true) (hg : g.fits = true) (h : Apart fs gs) :
    Apart (f :: fs) (g :: gs) := by
  intro x y heq
  simp only [encode, flatMap_cons, append_assoc] at heq
  obtain ⟨rfl, ht⟩ := Field.encode_append_inj hki hf hg heq
  obtain ⟨rfl, rfl⟩ := h x y ht
  exact ⟨rfl, rfl⟩

theorem apart_of_kinds (hki : fs.map Field.kind = gs.map Field.kind) (hf : fs.all Field.fits = true)
    (hg : gs.all Field.fits = true) : Apart fs gs := by
  induction fs generalizing gs with
  | nil =>
    obtain rfl := map_eq_nil_iff.1 hki.symm
    exact fun x y h => ⟨rfl, h⟩
  | cons f fs ih =>
    cases gs with
    | nil => cases hki
    | cons g gs =>
      obtain ⟨hfg, hrest⟩ := List.cons.inj hki
      rw [all_cons, Bool.and_eq_true] at hf hg
      exact .cons hfg hf.1 hg.1 (ih hrest hf.2 hg.2)

/-- Fields of the same kinds with the same bytes are the same fields. -/
theorem encode_inj (hki : fs.map Field.kind = gs.map Field.kind) (hf : fs.all Field.fits = true)
    (hg : gs.all Field.fits = true) (h : encode fs = encode gs) : fs = gs :=
  (apart_of_kinds hki hf hg [] [] (by rw [h])).1

theorem encode_append : encode (fs ++ fs') = encode fs ++ encode fs' := flatMap_append

/-- What is told apart can be cut off. -/
theorem Apart.cut (ha : Apart fs gs) (h : encode (fs ++ fs') = encode (gs ++ gs')) : fs = gs ∧ encode fs' = encode gs' := by
  rw [encode_append, encode_append] at h
  exact ha _ _ h

variable {values values' : List Bytes} {α : Type} {f : α → List Field} {v v' : Option α}

theorem strings_inj (h : strings values = strings values') : values = values' :=
  map_injective_iff.2 (fun _ _ => Field.bytes.inj) (List.cons.inj h).2

/-- The number of strings is cut off first, so the strings that follow are of the same kinds. -/
theorem apart_strings (hf : (strings values).all Field.fits = true)
    (hg : (strings values').all Field.fits = true) : Apart (strings values) (strings values') := by
  intro x y h
  have hco : values.length = values'.length := by
    rw [strings, all_cons, Bool.and_eq_true] at hf hg
    simp only [strings, encode, flatMap_cons, append_assoc] at h
    exact Field.count.inj (Field.encode_append_inj (f := .count values.length) (g := .count values'.length) rfl hf.1 hg.1 h).1
  refine apart_of_kinds ?_ hf hg x y h
  simp [strings, Field.kind, hco, Function.comp_def]

theorem optional_map_inj (hf : Function.Injective f) (h : optional (v.map f) = optional (v'.map f)) : v = v' := by
  cases v <;> cases v' <;> simp_all [optional, hf.eq_iff]

/-- A field that is missing is told apart from one that is there by its first byte. -/
theorem apart_optional (hf : (optional (v.map f)).all Field.fits = true) (hg : (optional (v'.map f)).all Field.fits = true)
    (h : ∀ a b, (f a).all Field.fits = true → (f b).all Field.fits = true → Apart (f a) (f b)) :
    Apart (optional (v.map f)) (optional (v'.map f)) := by
  intro x y heq
  cases v with
  | none =>
    cases v' with
    | none => exact ⟨rfl, (List.cons.inj heq).2⟩
    | some b => nomatch (List.cons.inj heq).1
  | some a =>
    cases v' with
    | none => nomatch (List.cons.inj heq).1
    | some b =>
      obtain ⟨hab, rfl⟩ := h a b (Bool.and_eq_true_iff.1 hf).2 (Bool.and_eq_true_iff.1 hg).2 x y (List.cons.inj heq).2
      exact ⟨congrArg (Field.byte 1 :: ·) hab, rfl⟩

end Apart

example : encode [.bytes (Bytes.str "ab"), .u64 7] = [0, 0, 0, 2, 97, 98, 0, 0, 0, 0, 0, 0, 0, 7] := by decide

end Canonical
