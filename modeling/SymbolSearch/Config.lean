import SymbolSearch.Kind

/-!
This module contains the settings of a search.
-/

namespace SymbolSearch

/--
How much a search shows: at most so many groups, in each of them at most so many entries, and only
entries of the given kinds if any are given.
-/
structure Config where
  maxGroups : Nat := 100
  maxEntriesPerGroup : Nat := 50
  kinds : Option (List Kind) := none
  deriving Repr, DecidableEq, Inhabited

/--
The settings that limit a number.
-/
inductive Limit
  | maxGroups
  | maxEntriesPerGroup
  deriving Repr, DecidableEq

def Limit.name : Limit → String
  | maxGroups => "max_groups"
  | maxEntriesPerGroup => "max_entries_per_group"

/--
What is wrong with settings.
-/
inductive ConfigError
  | malformed
  | zero (limit : Limit)
  deriving Repr, DecidableEq

def ConfigError.message : ConfigError → String
  | malformed => "failed to parse matcher config"
  | zero limit => limit.name ++ " must be at least 1"

namespace Config

/--
Whether entries of a kind are shown. If kinds are given, entries without a kind are not.
-/
def accepts (config : Config) (kind : Option Kind) : Bool :=
  match config.kinds with
  | none => true
  | some kinds => kind.any kinds.contains

def validate (config : Config) : Except ConfigError Config :=
  if config.maxGroups = 0 then
    .error (.zero .maxGroups)
  else if config.maxEntriesPerGroup = 0 then
    .error (.zero .maxEntriesPerGroup)
  else
    .ok config

end Config

end SymbolSearch
