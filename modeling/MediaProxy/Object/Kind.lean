import MediaProxy.Error
import MediaProxy.TypeTag

/-!
This module contains the types of proxies and the tables that say which kind of object gets which
type of proxy.
-/

namespace MediaProxy

/--
A type of proxies. It is not a tuple, so its label does not end like one.
-/
structure ProxyClass extends TypeTag where
  no_tuple : label.toList.getLast? ≠ some ')'
  deriving DecidableEq, Repr

def ProxyClass.pipeline : ProxyClass where
  label := "remotemedia_media_client::object::MediaPipeline"
  no_tuple := by decide

instance : Inhabited ProxyClass where
  default := .pipeline

abbrev KindTable := List (String × ProxyClass)

namespace KindTable

def standard : KindTable :=
  [(Reference.pipelineKind, .pipeline)]

def register (table : KindTable) (kind : String) (type : ProxyClass) : Except Error KindTable :=
  if (table.lookup kind).isSome then
    .error (.config ("Proxy kind '" ++ kind ++ "' already registered"))
  else .ok (table ++ [(kind, type)])

def type (table : KindTable) (reference : Reference) : Except Error ProxyClass :=
  match table.lookup reference.kind with
  | some type => .ok type
  | none =>
    .error (.unknownObjectKind ("no proxy registered for kind '" ++ reference.kind ++ "' (" ++
      reference.text ++ ")"))

def kinds (table : KindTable) : List String :=
  (table.map (·.1)).mergeSort

def shownKinds (table : KindTable) : String :=
  Text.list (table.kinds.map Text.quoted)

def shown (table : KindTable) : String :=
  Text.record "ProxyKinds" [("kinds", table.shownKinds)]

end KindTable

end MediaProxy
