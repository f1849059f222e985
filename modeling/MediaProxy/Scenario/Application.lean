import MediaProxy.Command.Result
import MediaProxy.Object.Kind

/-!
This module contains the types of proxies and of results that the application of a session brings
along, and its decoders.
-/

namespace MediaProxy

inductive ProxyType where
  | pipeline
  | player
  | recorder
  deriving DecidableEq, Repr, Inhabited

namespace ProxyType

def all : List ProxyType :=
  [.pipeline, .player, .recorder]

def toClass : ProxyType → ProxyClass
  | .pipeline => .pipeline
  | .player => { label := "media_oracle::session::PlayerEndpoint", no_tuple := by decide }
  | .recorder => { label := "media_oracle::session::RecorderEndpoint", no_tuple := by decide }

def ofClass (type : ProxyClass) : ProxyType :=
  (all.find? (·.toClass = type)).getD .pipeline

theorem ofClass_toClass (type : ProxyType) : ofClass type.toClass = type := by
  cases type <;> decide

end ProxyType

inductive ResultType where
  | position
  | u64
  | string
  | strings
  | reference
  | raw
  deriving DecidableEq, Repr

namespace ResultType

def all : List ResultType :=
  [.position, .u64, .string, .strings, .reference, .raw]

def tag : ResultType → TypeTag
  | .position => { label := "media_oracle::session::Position" }
  | .u64 => { label := "u64" }
  | .string => { label := "alloc::string::String" }
  | .strings => { label := "alloc::vec::Vec<alloc::string::String>" }
  | .reference => { label := "remotemedia_media_client::reference::MediaObjectRef" }
  | .raw => Decoder.raw.type

def ofTag? (tag : TypeTag) : Option ResultType :=
  all.find? (·.tag = tag)

theorem ofTag?_tag (type : ResultType) : ofTag? type.tag = some type := by
  cases type <;> decide

end ResultType

inductive ResultValue where
  | position (millis : Nat)
  | u64 (n : Nat)
  | string (text : String)
  | strings (texts : List String)
  | reference (reference : Reference)
  | raw (bytes : Bytes)
  deriving DecidableEq, Repr

namespace ResultValue

def type : ResultValue → ResultType
  | .position _ => .position
  | .u64 _ => .u64
  | .string _ => .string
  | .strings _ => .strings
  | .reference _ => .reference
  | .raw _ => .raw

def data : ResultValue → List Datum
  | .position millis => [.natural millis]
  | .u64 n => [.natural n]
  | .string text => [.text text]
  | .strings texts => texts.map .text
  | .reference r => [.text r.kind, .text r.id]
  | .raw bytes => bytes.map fun byte => .natural byte.toNat

def ofData : ResultType → List Datum → ResultValue
  | .position, data => .position ((data.findSome? Datum.natural?).getD 0)
  | .u64, data => .u64 ((data.findSome? Datum.natural?).getD 0)
  | .string, data => .string ((data.findSome? Datum.text?).getD "")
  | .strings, data => .strings (data.filterMap Datum.text?)
  | .reference, data =>
    match data.filterMap Datum.text? with
    | [kind, id] => .reference ⟨kind, id⟩
    | _ => .reference default
  | .raw, data => .raw ((data.filterMap Datum.natural?).map UInt8.ofNat)

theorem ofData_data (value : ResultValue) : ofData value.type value.data = value := by
  cases value with
  | strings texts => simp [ofData, type, data, Datum.text?, List.filterMap_map, Function.comp_def]
  | raw bytes => simp [ofData, type, data, Datum.natural?, List.filterMap_map, Function.comp_def]
  | _ => rfl

def ofDecoded (decoded : Decoded) : ResultValue :=
  ofData ((ResultType.ofTag? decoded.type).getD .raw) decoded.data

end ResultValue

namespace CommandResult

def is (result : CommandResult) (type : ResultType) : Bool :=
  result.isOf type.tag

def value (result : CommandResult) : ResultValue :=
  .ofDecoded result.decoded

end CommandResult

namespace Decoder

def positionFields : List Field :=
  [⟨"millis", .natural UInt64.size⟩]

def readJson (type : ResultType) (bytes : Bytes) : Except Json.Problem ResultValue :=
  let input := Json.Symbols.ofBytes bytes
  match type with
  | .position =>
    (Json.document (Json.readRecord positionFields true) input).map fun members =>
      .position ((members.natural? "millis").getD 0)
  | .u64 => (Json.document (Json.readNatural UInt64.size) input).map .u64
  | .string => (Json.document Json.readText input).map .string
  | .strings => (Json.document Json.readTexts input).map .strings
  | .reference => (Reference.ofJson input).map .reference
  | .raw => .ok (.raw bytes)

def json (type : ResultType) : Decoder :=
  .ofJson type.tag fun bytes => (readJson type bytes).map (·.data)

def reject : Decoder where
  type := ResultType.string.tag
  read bytes := .error (.application ("rejected " ++ toString bytes.length ++ " bytes") (-7))
  read_ne_exhausted := by
    intro bytes detail h
    cases h

end Decoder

end MediaProxy
