import Vera.Lib.Bytes
import Vera.Lib.Effect
import Vera.Lib.Time

/-!
# Objects, moments and keys

The types that the parts of `x/acp` share (`x/acp/types`).
-/

namespace Vera.Acp

open Bytes (str)

/-- An object of a policy. -/
structure Object where
  resource : Bytes
  id : Bytes
  deriving Repr, DecidableEq

/-- An actor, named by its DID. -/
structure Actor where
  id : Bytes
  deriving Repr, DecidableEq

/-- The kinds of errors of the ACP packages. -/
inductive ErrorType where
  | unknown | internal | unauthenticated | unauthorized | badInput | operationForbidden | notFound
  deriving Repr, DecidableEq

/-- An error of the ACP packages. A kind is an error in itself; `wrap` puts a message and named values around an error,
`withCause` makes a new error of a kind and keeps its cause, and the error of another library is kept as its text. -/
inductive Error where
  | kind (type : ErrorType)
  | wrap (message : Bytes) (cause : Error) (pairs : List (Bytes × Bytes))
  | withCause (message : Bytes) (cause : Error) (type : ErrorType) (pairs : List (Bytes × Bytes))
  | external (text : Bytes)
  deriving Repr, DecidableEq

structure ProtoTimestamp where
  seconds : Int
  nanos : Int
  deriving Repr, DecidableEq

/-- A moment: the time of a block and its height. -/
structure Timestamp where
  protoTs : Option ProtoTimestamp
  blockHeight : UInt64
  deriving Repr, DecidableEq

/-- The kind of a public key. -/
inductive KeyType where
  | secp256k1
  | other (name : Bytes)
  deriving Repr, DecidableEq

/-- The block a message runs in. -/
structure BlockCtx where
  height : Nat
  height_lt : height < 2 ^ 63
  time : Time
  deriving DecidableEq

def BlockCtx.height64 (ctx : BlockCtx) : UInt64 := UInt64.ofNat ctx.height

theorem BlockCtx.toNat_height64 (ctx : BlockCtx) : ctx.height64.toNat = ctx.height := by
  have := ctx.height_lt
  refine UInt64.toNat_ofNat_of_lt' ?_
  unfold UInt64.size
  omega

/-- The moment of a block; a time outside the range of a protobuf timestamp is an error. -/
def timestampFromCtx (ctx : BlockCtx) : Except Bytes Timestamp :=
  if ctx.time.marshalable then .ok ⟨some ⟨ctx.time.unix, ctx.time.nsec⟩, ctx.height64⟩
  else .error (str "timestamp: out of range")

section Pointers

variable {ε : Type}

def deref {α : Type} : Option α → Outcome ε α
  | some a => .ok a
  | none => .panic "invalid memory address or nil pointer dereference"

theorem deref_eq_ok {α : Type} {x : Option α} {a : α} : (deref x : Outcome ε α) = .ok a ↔ x = some a := by
  cases x with
  | none => exact ⟨(nomatch ·), (nomatch ·)⟩
  | some b => simp [deref]

end Pointers

end Vera.Acp
