import CartTokens.Workspace

/-!
# Settings

What is counted and how: the options of the walk through directories and the settings of a run.
-/

namespace CartTokens

/-- The extension of cartridges. -/
def cartridgeExtension : Text := "p8".toList

/-- How directories are walked through. -/
structure WalkOptions where
  roots : List Path := []
  threads : Nat := 1
  hidden : Bool := false
  gitIgnore : Bool := true
  maxDepth : Option Nat := none
  followLinks : Bool := false
  extensions : List Text := [cartridgeExtension]
  deriving Repr

/-- The extension of the path is one of the accepted ones, in any case. -/
def WalkOptions.accepts (o : WalkOptions) (path : Path) : Bool :=
  match path.extension? with
  | none => false
  | some e => o.extensions.any fun accepted => Text.lower accepted == Text.lower e

/-- The settings of a run; the interval is in seconds. -/
structure Settings where
  walk : WalkOptions := {}
  budget : Budget := .standard
  buffers : List Buffer := []
  strict : Bool := false
  watch : Bool := false
  watchInterval : Nat := 1

end CartTokens
