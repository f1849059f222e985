import MediaProxy.Error
import MediaProxy.Field
import MediaProxy.TypeTag

/-!
This module contains the results of commands and the decoders that make them out of bytes.
-/

namespace MediaProxy

/--
What a decoder makes of bytes: a value of some type. Nobody but those who know the type looks at the
data.
-/
structure Decoded where
  type : TypeTag
  data : List Datum
  deriving DecidableEq, Repr

/--
A decoder may fail in any way, but it has nothing to do with connections.
-/
structure Decoder where
  type : TypeTag
  read : Bytes → Except Error (List Datum)
  read_ne_exhausted : ∀ bytes detail, read bytes ≠ .error (.resourceExhausted detail)

namespace Decoder

def decode (decoder : Decoder) (bytes : Bytes) : Except Error Decoded :=
  (decoder.read bytes).map fun data => { type := decoder.type, data }

def ofJson (type : TypeTag) (read : Bytes → Except Json.Problem (List Datum)) : Decoder where
  type
  read bytes := (read bytes).mapError .serialization
  read_ne_exhausted := by
    intro bytes detail h
    cases hread : read bytes <;> rw [hread] at h <;> cases h

def raw : Decoder where
  type := { label := "bytes::bytes::Bytes" }
  read bytes := .ok (bytes.map fun byte => .natural byte.toNat)
  read_ne_exhausted := by
    intro bytes detail h
    cases h

end Decoder

structure CommandResult where
  type : String
  decoded : Decoded
  deriving DecidableEq, Repr

namespace CommandResult

def isOf (result : CommandResult) (type : TypeTag) : Bool :=
  result.decoded.type == type

def downcast (result : CommandResult) (type : TypeTag) : Except Error (List Datum) :=
  if result.isOf type then .ok result.decoded.data
  else .error (.unknownCommandType
    ("result of '" ++ result.type ++ "' is not a " ++ type.label))

def shown (result : CommandResult) : String :=
  Text.record "CommandResult" [("command_type", Text.quoted result.type)] true

end CommandResult

abbrev DecoderTable := List (String × Decoder)

namespace DecoderTable

def register (table : DecoderTable) (type : String) (decoder : Decoder) :
    Except Error DecoderTable :=
  if (table.lookup type).isSome then
    .error (.config ("Command type '" ++ type ++ "' already registered"))
  else .ok (table ++ [(type, decoder)])

def decode (table : DecoderTable) (type : String) (bytes : Bytes) : Except Error CommandResult :=
  match table.lookup type with
  | none =>
    .error (.unknownCommandType ("no result decoder registered for '" ++ type ++ "'"))
  | some decoder => (decoder.decode bytes).map fun decoded => { type, decoded }

def shown (table : DecoderTable) : String :=
  Text.record "CommandResultFactory"
    [("command_types", Text.list ((table.map (·.1)).mergeSort.map Text.quoted))]

end DecoderTable

end MediaProxy
