import MediaProxy.System.Basic

/-!
This module contains the making of contexts. Contexts may share registries of listeners, tables of
kinds and tables of decoders, but each has its own factory and its own connections.
-/

namespace MediaProxy

namespace Store

def addKindTable (store : Store) (table : KindTable) : Nat × Store :=
  (store.kindTables.length, { store with kindTables := store.kindTables ++ [table] })

def addRegistry (store : Store) : Nat × Store :=
  (store.registries.length, { store with registries := store.registries ++ [[]] })

def addDecoders (store : Store) : Nat × Store :=
  (store.decoderTables.length, { store with decoderTables := store.decoderTables ++ [[]] })

def addFactory (store : Store) (kinds : Nat) : Nat × Store :=
  (store.factories.length, { store with factories := store.factories ++ [{ kinds }] })

end Store

inductive Runtime where
  | given
  | current
  | missing
  deriving DecidableEq, Repr

structure ContextBuilder where
  config : Config := {}
  registry : Option Nat := none
  kinds : Option Nat := none
  decoders : Option Nat := none
  runtime : Runtime := .given

namespace ContextBuilder

def shown (builder : ContextBuilder) : String :=
  Text.record "MediaContextBuilder"
    [("config", builder.config.shown), ("runtime", Text.bool (builder.runtime = .given))]

def error? (builder : ContextBuilder) : Option Error :=
  match builder.config.validated with
  | .error error => some error
  | .ok _ =>
    if builder.runtime = .missing then
      some (.config "No runtime given and none is current")
    else none

end ContextBuilder

namespace System

def givenOr (given : Option Nat) (add : Store → Nat × Store) (store : Store) : Nat × Store :=
  match given with
  | some position => (position, store)
  | none => add store

def build (system : System) (builder : ContextBuilder) : Except Error Nat × System :=
  match builder.error? with
  | some error => (.error error, system)
  | none =>
    let (registry, store) := givenOr builder.registry Store.addRegistry system.store
    let (kinds, store) := givenOr builder.kinds (·.addKindTable .standard) store
    let (decoders, store) := givenOr builder.decoders Store.addDecoders store
    let (factory, store) := store.addFactory kinds
    let context : Context := { config := builder.config, factory, registry, decoders }
    let store := { store with contexts := store.contexts ++ [context] }
    let link : Link := { pool := .ofConfig builder.config }
    (.ok system.links.length, { system with store, links := system.links ++ [link] })

def shownContext (system : System) (c : Nat) : String :=
  let context := system.store.context c
  Text.record "MediaContext"
    [("config", context.config.shown), ("pool", (system.link c).pool.shown),
      ("listeners", (system.store.registry c).shown),
      ("objects", system.store.shownFactory context.factory)]

end System

end MediaProxy
