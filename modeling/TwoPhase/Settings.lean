/-
The settings of a site: whether and how pages are rendered in process, which languages and
caches are used, and the limits. The default timeout, in seconds, is for fragments that set none.
-/
namespace TwoPhase

structure Settings where
  render : Bool := false
  renderVerbose : Bool := false
  debug : Bool := false
  languages : List String := ["en"]
  cacheAliases : Option (List String) := none
  defaultTimeout : Option Nat := none
  maxIncludeDepth : Nat := 16
deriving DecidableEq

end TwoPhase
