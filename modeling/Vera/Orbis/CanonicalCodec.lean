import Vera.Lib.Codec
import Vera.Orbis.Report

/-!
# The canonical writer and decoder

The encoding that reports, statements and ring states are signed in (`reportCanonicalWriter` and `reportCanonicalDecoder` of
`x/orbis/keeper/report.go`). The writer appends to a buffer and remembers its first error. The decoder moves a cursor over a
byte slice; a read behind the end of the slice would be a panic. It simulates the readers of `ReportPayload`, which take what
they read from the front of the bytes that are left.
-/

namespace Vera.Orbis

open Eff List
open Bytes (str)
open Canonical (Field)

/-! ## The writer -/

/-- The writer: what was written so far, and the text of the first error. -/
structure ReportCanonicalWriter where
  bytes : Bytes
  err : Option Bytes
  deriving Repr, DecidableEq

def newReportCanonicalWriter : ReportCanonicalWriter := ⟨[], none⟩

namespace ReportCanonicalWriter

def setErr (w : ReportCanonicalWriter) (err : Bytes) : ReportCanonicalWriter := { w with err := w.err.or (some err) }

def append (w : ReportCanonicalWriter) (value : Bytes) : ReportCanonicalWriter := { w with bytes := w.bytes ++ value }

def writeU32 (w : ReportCanonicalWriter) (value : UInt32) : ReportCanonicalWriter := w.append (Bytes.bigEndian 4 value.toNat)

def writeU64 (w : ReportCanonicalWriter) (value : UInt64) : ReportCanonicalWriter := w.append (Bytes.bigEndian 8 value.toNat)

def writeBool (w : ReportCanonicalWriter) (value : Bool) : ReportCanonicalWriter := w.append [if value then 1 else 0]

def writeBytes (w : ReportCanonicalWriter) (value : Bytes) : ReportCanonicalWriter :=
  if 2 ^ 32 - 1 < value.length then w.setErr (str "byte slice exceeds u32 length")
  else (w.writeU32 (UInt32.ofNat value.length)).append value

def writeString (w : ReportCanonicalWriter) (value : Bytes) : ReportCanonicalWriter := w.writeBytes value

/-- Write a number that may be missing behind a byte that says whether it is there. -/
def writeOptionalU64 (w : ReportCanonicalWriter) : Option UInt64 → ReportCanonicalWriter
  | none => w.append [0]
  | some value => (w.append [1]).writeU64 value

/-- What was written, unless there was an error. -/
def finish (w : ReportCanonicalWriter) : Outcome Error Bytes :=
  match w.err with
  | some err => .err (invalid err)
  | none => .ok w.bytes

end ReportCanonicalWriter

/-! ## The decoder -/

/-- The decoder: a byte slice and the place of the next read in it. -/
structure ReportCanonicalDecoder where
  bytes : Bytes
  cursor : Int
  deriving Repr, DecidableEq

def newReportCanonicalDecoder (bytes : Bytes) : ReportCanonicalDecoder := ⟨bytes, 0⟩

/-- A slice of a slice. A read behind the end is a panic, also where the slice has room behind its end. -/
def slice (bytes : Bytes) (low high : Int) : Outcome Error Bytes :=
  if 0 ≤ low ∧ low ≤ high ∧ high ≤ bytes.length then .ok ((bytes.drop low.toNat).take (high - low).toNat)
  else .panic "slice bounds out of range"

/-- An integer as an unsigned number of 64 bits. -/
def toUint64 (n : Int) : Nat := if n < 0 then (n + 2 ^ 64).toNat else n.toNat

namespace ReportCanonicalDecoder

abbrev Call (α : Type) : Type := Eff ReportCanonicalDecoder Error α

def remaining (d : ReportCanonicalDecoder) : Int := d.bytes.length - d.cursor

/-- The next bytes, unless there are too few; the callers differ in how they compare and in the error. -/
def next (short : ReportCanonicalDecoder → Prop) [DecidablePred short] (text : Bytes) (n : Nat) : Call Bytes := do
  let d ← Eff.read
  Eff.require (¬short d) (invalid text)
  let value ← Eff.lift (slice d.bytes d.cursor (d.cursor + n))
  Eff.modify fun d => { d with cursor := d.cursor + n }
  pure value

def readByte (label : String) : Call UInt8 := do
  let b ← next (fun d => d.remaining < 1) (str "missing " ++ str label) 1
  pure (b.headD 0)

def readFixed32 (label : String) : Call Bytes := next (fun d => d.remaining < 32) (str "truncated " ++ str label) 32

def readByteBool (label : String) : Call Bool := do
  let value ← readByte label
  Eff.require (¬(value ≠ 0 ∧ value ≠ 1)) (invalid (str "invalid bool " ++ str label ++ str " tag " ++ Decimal.dec value.toNat))
  pure (value = 1)

def readU32 (label : String) : Call UInt32 := do
  let b ← next (fun d => d.remaining < 4) (str "missing " ++ str label) 4
  pure (UInt32.ofNat (Bytes.ofBigEndian b))

def readU64 (label : String) : Call UInt64 := do
  let b ← next (fun d => d.remaining < 8) (str "missing " ++ str label) 8
  pure (UInt64.ofNat (Bytes.ofBigEndian b))

/-- Read a byte string behind its length; the lengths are compared as unsigned numbers. -/
def readBytes (label : String) : Call Bytes := do
  let length ← readU32 (label ++ "_length")
  next (fun d => toUint64 d.remaining < length.toNat) (str "truncated " ++ str label) length.toNat

def readString (label : String) : Call Bytes := do
  let value ← readBytes label
  Eff.require (¬Bytes.validUtf8 value = false) (invalid (str label ++ str " is not utf-8"))
  pure value

/-- Read the byte in front of a value that may be missing. -/
def readPresent (label : String) : Call Bool := do
  let tag ← readByte (label ++ "_present")
  Eff.require (¬(tag ≠ 0 ∧ tag ≠ 1)) (invalid (str "invalid optional " ++ str label ++ str " tag " ++ Decimal.dec tag.toNat))
  pure (tag = 1)

def readOptionalBytes (label : String) : Call Bytes := do
  let present ← readPresent label
  if present then readBytes label else pure []

def readOptionalU64 (label : String) : Call (Option UInt64) := do
  let present ← readPresent label
  if present then some <$> readU64 label else pure none

def finish : Call Unit := do
  let d ← Eff.read
  Eff.require (¬d.cursor ≠ d.bytes.length) (invalid (str "trailing payload bytes"))

/-! ### The bytes that are left -/

def left (d : ReportCanonicalDecoder) : Bytes := d.bytes.drop d.cursor.toNat

/-- The cursor is in the slice, or at its end. -/
def InBounds (d : ReportCanonicalDecoder) : Prop := 0 ≤ d.cursor ∧ d.cursor ≤ d.bytes.length

/-- A call does to the decoder what a reader does to the bytes that are left, and leaves the cursor in the slice. -/
abbrev Simulates {α : Type} (call : Call α) (read : Decoder α) : Prop := Codec.Simulates left InBounds call read

theorem InBounds.length_left {d : ReportCanonicalDecoder} (h : d.InBounds) : (d.left.length : Int) = d.remaining := by
  obtain ⟨hl, hh⟩ := h
  rw [left, remaining, length_drop]
  omega

/-- The next bytes are taken from the front of those that are left, if the comparison is the right one. -/
theorem simulates_next {short : ReportCanonicalDecoder → Prop} [DecidablePred short] {text : Bytes} {n : Nat}
    (hs : ∀ d, d.InBounds → (short d ↔ d.left.length < n)) : Simulates (next short text n) (readFixed n text) := by
  intro d hd
  have hcall : next short text n d = if ¬short d then (Eff.lift (slice d.bytes d.cursor (d.cursor + n)) >>= fun value =>
        Eff.modify (fun d => { d with cursor := d.cursor + n }) >>= fun _ => pure value) d
      else (.err (invalid text), d) := require_bind_apply d
  by_cases hl : d.left.length < n
  · rw [hcall, if_neg (not_not.2 ((hs d hd).2 hl)), readFixed, if_pos hl]
    exact ⟨.err (invalid text), d, rfl, rfl, hd, nofun⟩
  · have hr := hd.length_left
    obtain ⟨hlo, hh⟩ := id hd
    rw [remaining] at hr
    have hsl : slice d.bytes d.cursor (d.cursor + n) = .ok (d.left.take n) := by
      rw [slice, if_pos (by omega), add_sub_cancel_left]
      rfl
    have hdr : d.left.drop n = left { d with cursor := d.cursor + n } := by
      show (d.bytes.drop d.cursor.toNat).drop n = d.bytes.drop (d.cursor + n).toNat
      rw [drop_drop]
      congr 1
      omega
    rw [hcall, if_pos (fun h => hl ((hs d hd).1 h)), hsl, readFixed, if_neg hl, hdr]
    exact ⟨.ok (d.left.take n), { d with cursor := d.cursor + n }, rfl, rfl, by constructor <;> dsimp only <;> omega, nofun⟩

theorem simulates_next_fixed (n : Nat) (text : Bytes) :
    Simulates (next (fun d => d.remaining < n) text n) (readFixed n text) :=
  simulates_next fun d hd => by rw [← hd.length_left, Int.ofNat_lt]

theorem simulates_readByte (label : String) : Simulates (readByte label) (Orbis.readByte label) :=
  (simulates_next_fixed 1 _).bind fun _ => Codec.simulates_pure _

theorem simulates_readFixed32 (label : String) : Simulates (readFixed32 label) (Orbis.readFixed32 label) :=
  simulates_next_fixed 32 _

theorem simulates_readByteBool (label : String) : Simulates (readByteBool label) (Orbis.readByteBool label) :=
  (simulates_readByte label).bind fun _ => (Codec.simulates_require _ _).bind fun _ => Codec.simulates_pure _

theorem simulates_readU32 (label : String) : Simulates (readU32 label) (Orbis.readU32 label) :=
  (simulates_next_fixed 4 _).bind fun _ => Codec.simulates_pure _

theorem simulates_readU64 (label : String) : Simulates (readU64 label) (Orbis.readU64 label) :=
  (simulates_next_fixed 8 _).bind fun _ => Codec.simulates_pure _

theorem simulates_readBytes (label : String) : Simulates (readBytes label) (Orbis.readBytes label) := by
  refine (simulates_readU32 _).bind fun length => simulates_next fun d hd => ?_
  -- the number of bytes left is not negative, so that the conversion keeps it
  rw [← hd.length_left, toUint64, if_neg (by omega), Int.toNat_natCast]

theorem simulates_readString (label : String) : Simulates (readString label) (Orbis.readString label) :=
  (simulates_readBytes label).bind fun _ => (Codec.simulates_require _ _).bind fun _ => Codec.simulates_pure _

theorem simulates_readPresent (label : String) : Simulates (readPresent label) (Orbis.readPresent label) :=
  (simulates_readByte _).bind fun _ => (Codec.simulates_require _ _).bind fun _ => Codec.simulates_pure _

theorem simulates_readOptionalBytes (label : String) : Simulates (readOptionalBytes label) (Orbis.readOptionalBytes label) := by
  refine (simulates_readPresent label).bind fun present => ?_
  cases present with
  | true => exact simulates_readBytes label
  | false => exact Codec.simulates_pure []

theorem simulates_readOptionalU64 (label : String) : Simulates (readOptionalU64 label) (Orbis.readOptionalU64 label) := by
  refine (simulates_readPresent label).bind fun present => ?_
  cases present with
  | true => exact (simulates_readU64 label).bind fun _ => Codec.simulates_pure _
  | false => exact Codec.simulates_pure none

theorem simulates_finish : Simulates finish Orbis.finish := by
  intro d hd
  have hen : ¬d.cursor ≠ d.bytes.length ↔ ¬d.left ≠ [] := by
    obtain ⟨hl, hh⟩ := hd
    rw [left, not_not, not_not, drop_eq_nil_iff]
    omega
  have hcall : finish d = Eff.require (¬d.cursor ≠ d.bytes.length) (invalid (str "trailing payload bytes")) d := rfl
  have hr : Orbis.finish d.left = Eff.require (¬d.left ≠ []) (invalid (str "trailing payload bytes")) d.left := rfl
  rw [hcall, hr]
  simp only [Eff.require, hen]
  split
  · exact ⟨.ok (), d, rfl, rfl, hd, nofun⟩
  · exact ⟨.err _, d, rfl, rfl, hd, nofun⟩

end ReportCanonicalDecoder

/-! ## Readers that invert the writer -/

section Readers

open Codec (Inverts)

theorem inverts_readFixed (n : Nat) (text : Bytes) : Inverts (readFixed n text) id fun b => b.length = n := by
  intro s b rest
  unfold readFixed Eff.Succeeds
  dsimp only
  split
  · rename_i hs
    refine ⟨(nomatch ·), ?_⟩
    rintro ⟨rfl, rfl⟩
    simp only [id, length_append] at hs
    omega
  · rename_i hl
    rw [Prod.mk.injEq, Outcome.ok.injEq]
    constructor
    · rintro ⟨rfl, rfl⟩
      exact ⟨length_take_of_le (Nat.not_lt.1 hl), (take_append_drop n s).symm⟩
    · rintro ⟨rfl, rfl⟩
      exact ⟨take_left, drop_left⟩

theorem inverts_number {α : Type} {n : Nat} {text : Bytes} {ofNat : Nat → α} {toNat : α → Nat}
    (hlt : ∀ a, toNat a < 256 ^ n) (hof : ∀ a, ofNat (toNat a) = a) (hto : ∀ k, k < 256 ^ n → toNat (ofNat k) = k) :
    Inverts (readFixed n text >>= fun b => pure (ofNat (Bytes.ofBigEndian b))) (fun a => Bytes.bigEndian n (toNat a))
      fun _ => True := by
  refine (inverts_readFixed n text).map (fun b hb => ⟨trivial, ?_⟩) fun a _ => ⟨Bytes.bigEndian n (toNat a), by simp, ?_⟩
  · subst hb
    rw [hto _ (Bytes.ofBigEndian_lt b), Bytes.bigEndian_ofBigEndian]
    rfl
  · rw [Bytes.ofBigEndian_bigEndian, Nat.mod_eq_of_lt (hlt a), hof]

theorem inverts_readByte (label : String) : Inverts (readByte label) (fun b => [b]) fun _ => True := by
  refine (inverts_readFixed 1 _).map (fun b hb => ⟨trivial, ?_⟩) fun b _ => ⟨[b], rfl, rfl⟩
  obtain ⟨x, rfl⟩ := length_eq_one_iff.1 hb
  rfl

theorem inverts_readU32 (label : String) : Inverts (readU32 label) (fun v => Bytes.bigEndian 4 v.toNat) fun _ => True :=
  inverts_number (fun v => v.toNat_lt) (fun v => v.ofNat_toNat) fun _ hk => UInt32.toNat_ofNat_of_lt' hk

theorem inverts_readU64 (label : String) : Inverts (readU64 label) (fun v => Bytes.bigEndian 8 v.toNat) fun _ => True :=
  inverts_number (fun v => v.toNat_lt) (fun v => v.ofNat_toNat) fun _ hk => UInt64.toNat_ofNat_of_lt' hk

theorem inverts_readBytes (label : String) :
    Inverts (readBytes label) (fun s => (Field.bytes s).encode) fun s => s.length < 2 ^ 32 := by
  refine ((inverts_readU32 _).bind (fun length => inverts_readFixed length.toNat _) (fun s => UInt32.ofNat s.length)
    fun length s hs => ?_).congr (fun s => ?_) fun s hs => ?_
  · rw [hs, UInt32.ofNat_toNat]
  · constructor
    · rintro ⟨-, hs⟩
      exact hs ▸ UInt32.toNat_lt _
    · exact fun hs => ⟨trivial, (UInt32.toNat_ofNat_of_lt' hs).symm⟩
  · rw [UInt32.toNat_ofNat_of_lt' hs]
    rfl

theorem inverts_readString (label : String) :
    Inverts (readString label) (fun s => (Field.bytes s).encode) fun s => s.length < 2 ^ 32 ∧ ¬Bytes.validUtf8 s = false :=
  (inverts_readBytes label).guard _ _

theorem inverts_flag (label : String) (text : UInt8 → Bytes) :
    Inverts (readByte label >>= fun value => reject (value ≠ 0 ∧ value ≠ 1) (text value) >>= fun _ => pure (decide (value = 1)))
      (fun flag => [if flag then 1 else 0]) fun _ => True := by
  have hb : ∀ value : UInt8, ¬(value ≠ 0 ∧ value ≠ 1) → [value] = [if decide (value = 1) then 1 else 0] := by
    intro value hv
    by_cases h : value = 1 <;> simp_all
  intro s flag rest
  simp only [bind_ok, reject, require_ok, pure_ok, inverts_readByte label _ _ _, true_and]
  constructor
  · rintro ⟨value, _, rfl, _, _, ⟨hv, rfl⟩, rfl, rfl⟩
    rw [hb value hv]
  · rintro rfl
    refine ⟨if flag then 1 else 0, rest, rfl, (), rest, ⟨?_, rfl⟩, ?_, rfl⟩
    · cases flag <;> simp
    · cases flag <;> rfl

theorem inverts_readOptionalU64 (label : String) :
    Inverts (readOptionalU64 label) (fun v => Canonical.encode (Canonical.optional (v.map fun n => [.u64 n]))) fun _ => True := by
  have hrest : ∀ present : Bool, Inverts (if present then some <$> readU64 label else pure none)
      (fun v : Option UInt64 => v.elim [] fun n => Bytes.bigEndian 8 n.toNat) fun v => v.isSome = present := by
    intro present
    cases present with
    | true =>
      refine (inverts_readU64 label).map (fun n _ => ⟨rfl, rfl⟩) fun v hv => ?_
      obtain ⟨n, rfl⟩ := Option.isSome_iff_exists.1 hv
      exact ⟨n, trivial, rfl⟩
    | false =>
      refine (Codec.inverts_pure none).congr (fun v => ?_) fun v hv => ?_
      · cases v <;> simp
      · cases v <;> simp_all
  refine ((inverts_flag _ _).bind hrest Option.isSome fun present v hv => hv).congr (fun v => ?_) fun v _ => ?_
  · exact ⟨fun _ => trivial, fun _ => ⟨trivial, rfl⟩⟩
  · cases v <;> rfl

end Readers

/-! ## Typed fields -/

/-- The types of fields that are both written and read. -/
inductive FieldType where
  | bool
  | u32
  | u64
  | optionalU64
  | bytes
  | string
  deriving Repr, DecidableEq

inductive TypedField where
  | bool (value : Bool)
  | u32 (value : UInt32)
  | u64 (value : UInt64)
  | optionalU64 (value : Option UInt64)
  | bytes (value : Bytes)
  | string (value : Bytes)
  deriving Repr, DecidableEq

namespace TypedField

def type : TypedField → FieldType
  | bool _ => .bool
  | u32 _ => .u32
  | u64 _ => .u64
  | optionalU64 _ => .optionalU64
  | bytes _ => .bytes
  | string _ => .string

/-- The length fits into four bytes, and a string is UTF-8. -/
def Valid : TypedField → Prop
  | bytes value => value.length < 2 ^ 32
  | string value => value.length < 2 ^ 32 ∧ Bytes.validUtf8 value = true
  | _ => True

def write (w : ReportCanonicalWriter) : TypedField → ReportCanonicalWriter
  | bool value => w.writeBool value
  | u32 value => w.writeU32 value
  | u64 value => w.writeU64 value
  | optionalU64 value => w.writeOptionalU64 value
  | bytes value => w.writeBytes value
  | string value => w.writeString value

def encode : TypedField → Bytes
  | bool value => [if value then 1 else 0]
  | u32 value => Bytes.bigEndian 4 value.toNat
  | u64 value => Bytes.bigEndian 8 value.toNat
  | optionalU64 value => Canonical.encode (Canonical.optional (value.map fun n => [.u64 n]))
  | bytes value => (Field.bytes value).encode
  | string value => (Field.bytes value).encode

end TypedField

def ReportCanonicalDecoder.readField (label : String) : FieldType → Call TypedField
  | .bool => do pure (.bool (← readByteBool label))
  | .u32 => do pure (.u32 (← readU32 label))
  | .u64 => do pure (.u64 (← readU64 label))
  | .optionalU64 => do pure (.optionalU64 (← readOptionalU64 label))
  | .bytes => do pure (.bytes (← readBytes label))
  | .string => do pure (.string (← readString label))

/-- What the writer makes of a list of fields. -/
def writeFields (fields : List TypedField) : Outcome Error Bytes := (fields.foldl TypedField.write newReportCanonicalWriter).finish

/-- Read fields of given types, each with the name it has in errors, and then the end. -/
def readFields (types : List (String × FieldType)) : ReportCanonicalDecoder.Call (List TypedField) := do
  let fields ← Codec.readEach (fun t => ReportCanonicalDecoder.readField t.1 t.2) types
  ReportCanonicalDecoder.finish
  pure fields

def decodeFields (types : List (String × FieldType)) (bytes : Bytes) : Outcome Error (List TypedField) :=
  (readFields types (newReportCanonicalDecoder bytes)).1

theorem write_of_valid {field : TypedField} (h : field.Valid) (w : ReportCanonicalWriter) :
    field.write w = w.append field.encode := by
  have hb : ∀ value : Bytes, value.length < 2 ^ 32 → w.writeBytes value = w.append (Field.bytes value).encode := by
    intro value hv
    rw [ReportCanonicalWriter.writeBytes, if_neg (by omega), ReportCanonicalWriter.writeU32, UInt32.toNat_ofNat_of_lt' hv]
    simp [ReportCanonicalWriter.append, Field.encode]
  cases field with
  | bool value => rfl
  | u32 value => rfl
  | u64 value => rfl
  | optionalU64 value =>
    cases value with
    | none => rfl
    | some n => simp [TypedField.write, ReportCanonicalWriter.writeOptionalU64, ReportCanonicalWriter.writeU64,
        ReportCanonicalWriter.append, TypedField.encode, Canonical.encode, Canonical.optional, Field.encode]
  | bytes value => exact hb value h
  | string value => exact hb value h.1

theorem writeFields_of_valid {fields : List TypedField} (h : ∀ f ∈ fields, f.Valid) :
    writeFields fields = .ok (fields.flatMap TypedField.encode) := by
  have hf : ∀ w, fields.foldl TypedField.write w = w.append (fields.flatMap TypedField.encode) := by
    induction fields with
    | nil => intro w; simp [ReportCanonicalWriter.append]
    | cons f rest ih =>
      intro w
      rw [foldl_cons, write_of_valid (h f mem_cons_self), ih fun g hg => h g (mem_cons_of_mem _ hg)]
      simp [ReportCanonicalWriter.append]
  rw [writeFields, hf]
  rfl

theorem exists_reader {α : Type} {call : ReportCanonicalDecoder.Call α} {read : Decoder α} {write : α → Bytes}
    {valid : α → Prop} {t : FieldType} (make : α → TypedField) (hs : ReportCanonicalDecoder.Simulates call read)
    (hin : Codec.Inverts read write valid)
    (hto : ∀ a, valid a → ((make a).type = t ∧ (make a).Valid) ∧ (make a).encode = write a)
    (hf : ∀ f : TypedField, f.type = t ∧ f.Valid → ∃ a, valid a ∧ make a = f) :
    ∃ read', ReportCanonicalDecoder.Simulates (call >>= fun a => pure (make a)) read' ∧
      Codec.Inverts read' TypedField.encode fun f => f.type = t ∧ f.Valid :=
  ⟨_, hs.bind fun _ => Codec.simulates_pure _, hin.map hto hf⟩

open ReportCanonicalDecoder in
theorem exists_fieldReader (label : String) (t : FieldType) : ∃ read : Decoder TypedField,
    ReportCanonicalDecoder.Simulates (readField label t) read ∧
      Codec.Inverts read TypedField.encode fun f => f.type = t ∧ f.Valid := by
  cases t with
  | bool =>
    refine exists_reader .bool (simulates_readByteBool label) (inverts_flag _ _) (fun _ _ => ⟨⟨rfl, trivial⟩, rfl⟩) ?_
    rintro (_ | _ | _ | _ | _ | _) ⟨ht, _⟩ <;> first | exact ⟨_, trivial, rfl⟩ | nomatch ht
  | u32 =>
    refine exists_reader .u32 (simulates_readU32 label) (inverts_readU32 _) (fun _ _ => ⟨⟨rfl, trivial⟩, rfl⟩) ?_
    rintro (_ | _ | _ | _ | _ | _) ⟨ht, _⟩ <;> first | exact ⟨_, trivial, rfl⟩ | nomatch ht
  | u64 =>
    refine exists_reader .u64 (simulates_readU64 label) (inverts_readU64 _) (fun _ _ => ⟨⟨rfl, trivial⟩, rfl⟩) ?_
    rintro (_ | _ | _ | _ | _ | _) ⟨ht, _⟩ <;> first | exact ⟨_, trivial, rfl⟩ | nomatch ht
  | optionalU64 =>
    refine exists_reader .optionalU64 (simulates_readOptionalU64 label) (inverts_readOptionalU64 _)
      (fun _ _ => ⟨⟨rfl, trivial⟩, rfl⟩) ?_
    rintro (_ | _ | _ | _ | _ | _) ⟨ht, _⟩ <;> first | exact ⟨_, trivial, rfl⟩ | nomatch ht
  | bytes =>
    refine exists_reader .bytes (simulates_readBytes label) (inverts_readBytes _) (fun _ hs => ⟨⟨rfl, hs⟩, rfl⟩) ?_
    rintro (_ | _ | _ | _ | _ | _) ⟨ht, hv⟩ <;> first | exact ⟨_, hv, rfl⟩ | nomatch ht
  | string =>
    refine exists_reader .string (simulates_readString label) (inverts_readString _)
      (fun _ hs => ⟨⟨rfl, hs.1, by simpa using hs.2⟩, rfl⟩) ?_
    rintro (_ | _ | _ | _ | _ | _) ⟨ht, hv⟩ <;> first | exact ⟨_, ⟨hv.1, by simpa using hv.2⟩, rfl⟩ | nomatch ht

theorem inBounds_newReportCanonicalDecoder (bytes : Bytes) : (newReportCanonicalDecoder bytes).InBounds :=
  ⟨le_refl 0, Int.natCast_nonneg _⟩

theorem decodeFields_eq_ok {types : List (String × FieldType)} {bytes : Bytes} {fields : List TypedField} :
    decodeFields types bytes = .ok fields ↔
      List.Forall₂ (fun t f => f.type = t.2 ∧ f.Valid) types fields ∧ bytes = fields.flatMap TypedField.encode := by
  choose read hs hin using exists_fieldReader
  have hre := Codec.inverts_readEach (fun t : String × FieldType => hin t.1 t.2) types
  have ha : ReportCanonicalDecoder.Simulates (readFields types) _ :=
    (Codec.simulates_readEach (fun t : String × FieldType => hs t.1 t.2) types).bind fun fields =>
      ReportCanonicalDecoder.simulates_finish.bind fun _ => Codec.simulates_pure fields
  obtain ⟨o, d, hcall, hl, -, -⟩ := ha _ (inBounds_newReportCanonicalDecoder bytes)
  have hou : decodeFields types bytes = _ := (congrArg Prod.fst hcall).trans (congrArg Prod.fst hl).symm
  rw [hou]
  constructor
  · intro h
    obtain ⟨got, left, hr, h⟩ := bind_ok.1 (succeeds_of_fst_eq h)
    obtain ⟨_, left', hf, h⟩ := bind_ok.1 h
    obtain ⟨rfl, -⟩ := pure_ok.1 h
    obtain ⟨hv, hb⟩ := (hre _ _ _).1 hr
    have hen : ¬left ≠ [] := (require_ok.1 hf).1
    rw [not_not.1 hen, append_nil] at hb
    exact ⟨hv, hb⟩
  · rintro ⟨hv, rfl⟩
    have hr := (hre _ fields []).2 ⟨hv, (append_nil _).symm⟩
    exact congrArg Prod.fst (Eff.Succeeds.bind_eq hr)

/-! ### Calls of the decoder -/

/-- The methods of the decoder. -/
inductive DecoderCall where
  | byte
  | fixed32
  | byteBool
  | u32
  | u64
  | string
  | bytes
  | optionalBytes
  | optionalU64
  | finish
  deriving Repr, DecidableEq

namespace ReportCanonicalDecoder

def call (label : String) : DecoderCall → Call Unit
  | .byte => do let _ ← readByte label
  | .fixed32 => do let _ ← readFixed32 label
  | .byteBool => do let _ ← readByteBool label
  | .u32 => do let _ ← readU32 label
  | .u64 => do let _ ← readU64 label
  | .string => do let _ ← readString label
  | .bytes => do let _ ← readBytes label
  | .optionalBytes => do let _ ← readOptionalBytes label
  | .optionalU64 => do let _ ← readOptionalU64 label
  | .finish => finish

theorem exists_simulates_call (label : String) (c : DecoderCall) : ∃ read, Simulates (call label c) read := by
  have hd : ∀ {α : Type} {x : Call α} {y : Decoder α}, Simulates x y → ∃ read, Simulates (x >>= fun _ => pure ()) read :=
    fun h => ⟨_, h.bind fun _ => Codec.simulates_pure ()⟩
  cases c with
  | byte => exact hd (simulates_readByte label)
  | fixed32 => exact hd (simulates_readFixed32 label)
  | byteBool => exact hd (simulates_readByteBool label)
  | u32 => exact hd (simulates_readU32 label)
  | u64 => exact hd (simulates_readU64 label)
  | string => exact hd (simulates_readString label)
  | bytes => exact hd (simulates_readBytes label)
  | optionalBytes => exact hd (simulates_readOptionalBytes label)
  | optionalU64 => exact hd (simulates_readOptionalU64 label)
  | finish => exact ⟨_, simulates_finish⟩

/-- The decoder after a number of calls, whatever they returned. -/
def after (calls : List (String × DecoderCall)) (d : ReportCanonicalDecoder) : ReportCanonicalDecoder :=
  calls.foldl (fun d c => (call c.1 c.2 d).2) d

theorem InBounds.after {d : ReportCanonicalDecoder} (h : d.InBounds) (calls : List (String × DecoderCall)) :
    (d.after calls).InBounds := by
  induction calls generalizing d with
  | nil => exact h
  | cons c rest ih =>
    obtain ⟨read, hs⟩ := exists_simulates_call c.1 c.2
    obtain ⟨o, d', hcall, -, hd', -⟩ := hs d h
    have hne : (call c.1 c.2 d).2.InBounds := by
      rw [hcall]
      exact hd'
    exact ih hne

end ReportCanonicalDecoder

theorem forall₂_types_iff {types : List (String × FieldType)} {fields : List TypedField} :
    List.Forall₂ (fun t f => f.type = t.2 ∧ f.Valid) types fields ↔
      fields.map TypedField.type = types.map Prod.snd ∧ ∀ f ∈ fields, f.Valid := by
  induction types generalizing fields with
  | nil => cases fields <;> simp
  | cons t rest ih =>
    cases fields with
    | nil => simp
    | cons f fields =>
      rw [forall₂_cons, ih, map_cons, map_cons, List.cons.injEq, forall_mem_cons]
      tauto

/-- Decoding what was written of valid fields gives the fields; what the decoder accepts is what the writer makes of the fields
it returns; and after any calls the cursor is in the slice and the next call does not panic. -/
theorem canonical_codec_exact :
    (∀ (types : List (String × FieldType)) (fields : List TypedField), fields.map TypedField.type = types.map Prod.snd →
      (∀ f ∈ fields, f.Valid) → ∃ bytes, writeFields fields = .ok bytes ∧ decodeFields types bytes = .ok fields) ∧
    (∀ types bytes fields, decodeFields types bytes = .ok fields →
      fields.map TypedField.type = types.map Prod.snd ∧ (∀ f ∈ fields, f.Valid) ∧ writeFields fields = .ok bytes) ∧
    ∀ bytes calls label c, ((newReportCanonicalDecoder bytes).after calls).InBounds ∧
        ∀ m, (ReportCanonicalDecoder.call label c ((newReportCanonicalDecoder bytes).after calls)).1 ≠ .panic m := by
  refine ⟨fun types fields ht hv => ?_, fun types bytes fields h => ?_, fun bytes calls label c => ?_⟩
  · exact ⟨_, writeFields_of_valid hv, decodeFields_eq_ok.2 ⟨forall₂_types_iff.2 ⟨ht, hv⟩, rfl⟩⟩
  · obtain ⟨hf, rfl⟩ := decodeFields_eq_ok.1 h
    obtain ⟨ht, hv⟩ := forall₂_types_iff.1 hf
    exact ⟨ht, hv, writeFields_of_valid hv⟩
  · obtain ⟨read, hs⟩ := ReportCanonicalDecoder.exists_simulates_call label c
    have hb := (inBounds_newReportCanonicalDecoder bytes).after calls
    obtain ⟨o, d, hcall, -, -, hca⟩ := hs _ hb
    rw [hcall]
    exact ⟨hb, hca⟩

example : decodeFields [("n", .u32), ("s", .string)] [0, 0, 0, 7, 0, 0, 0, 2, 104, 105] = .ok [.u32 7, .string (str "hi")] := by
  decide

end Vera.Orbis
