namespace ScopeForest

structure BuilderSettings where
  /-- Whether units share declarations; if not, they share only the root. -/
  joinDeclarations : Bool := true
  /-- Whether a class lists the typedefs that stand for it. -/
  bindAliases : Bool := true
  /-- How many units are built at once; 0 leaves it to the system. -/
  parallelThreads : Nat := 0
  /-- How the names made up for unnamed scopes begin. -/
  anonymousPrefix : String := "__anon"
  /-- Whether a declaration without a context belongs to the root; if not, it is an error. -/
  lenientContext : Bool := true
  deriving DecidableEq, Repr

structure QuerySettings where
  /-- Whether a search for a name starts from the index of names. -/
  nameIndex : Bool := true
  deriving DecidableEq, Repr

structure LoggingSettings where
  level : String := "warn"
  /-- Stands for the level `debug`. -/
  debug : Bool := false
  deriving DecidableEq, Repr

structure Settings where
  version : Nat := 1
  builder : BuilderSettings := {}
  query : QuerySettings := {}
  logging : LoggingSettings := {}
  deriving DecidableEq, Repr

def Settings.logLevel (s : Settings) : String :=
  if s.logging.debug then "debug" else s.logging.level

end ScopeForest
