import ScopeForest.Json.Decode
import ScopeForest.Settings.Basic
import ScopeForest.Text.Decimal

namespace ScopeForest

open Json

namespace BuilderSettings

def toJson (s : BuilderSettings) : Json :=
  obj [("join_declarations", bool s.joinDeclarations), ("bind_aliases", bool s.bindAliases),
    ("parallel_threads", nat s.parallelThreads), ("anonymous_prefix", str s.anonymousPrefix),
    ("lenient_context", bool s.lenientContext)]

def ofJson? (v : Json) : Option BuilderSettings := do
  let slot ← v.slots? ["join_declarations", "bind_aliases", "parallel_threads",
    "anonymous_prefix", "lenient_context"]
  let base : BuilderSettings := {}
  return {
    joinDeclarations := ← (slot "join_declarations").withDefault base.joinDeclarations bool?
    bindAliases := ← (slot "bind_aliases").withDefault base.bindAliases bool?
    parallelThreads :=
      ← (slot "parallel_threads").withDefault base.parallelThreads (nat? Text.maxWord64)
    anonymousPrefix := ← (slot "anonymous_prefix").withDefault base.anonymousPrefix str?
    lenientContext := ← (slot "lenient_context").withDefault base.lenientContext bool? }

end BuilderSettings

namespace QuerySettings

def toJson (s : QuerySettings) : Json := obj [("name_index", bool s.nameIndex)]

def ofJson? (v : Json) : Option QuerySettings := do
  let slot ← v.slots? ["name_index"]
  return { nameIndex := ← (slot "name_index").withDefault true bool? }

end QuerySettings

namespace LoggingSettings

def toJson (s : LoggingSettings) : Json := obj [("level", str s.level), ("debug", bool s.debug)]

def ofJson? (v : Json) : Option LoggingSettings := do
  let slot ← v.slots? ["level", "debug"]
  let base : LoggingSettings := {}
  return {
    level := ← (slot "level").withDefault base.level str?
    debug := ← (slot "debug").withDefault base.debug bool? }

end LoggingSettings

namespace Settings

def toJson (s : Settings) : Json :=
  obj [("version", nat s.version), ("builder", s.builder.toJson), ("query", s.query.toJson),
    ("logging", s.logging.toJson)]

def ofJson? (v : Json) : Option Settings := do
  let slot ← v.slots? ["version", "builder", "query", "logging"]
  let base : Settings := {}
  return {
    version := ← (slot "version").withDefault base.version (nat? Text.maxWord32)
    builder := ← (slot "builder").withDefault base.builder BuilderSettings.ofJson?
    query := ← (slot "query").withDefault base.query QuerySettings.ofJson?
    logging := ← (slot "logging").withDefault base.logging LoggingSettings.ofJson? }

end Settings

end ScopeForest
