set_option autoImplicit false

/-!
# Configurations

The settings of an engine.

## Main definitions

* `Config` — the settings, each with a default.
-/

namespace FrameScript

/-- The settings of an engine. -/
structure Config where
  /-- How many calls may be active. -/
  maxCallDepth : Nat := 256
  /-- Whether programs are analysed before they run. -/
  checkSemantics : Bool := true
  /-- Whether a host that keeps a log notes every call in it. -/
  traceCalls : Bool := false
  deriving DecidableEq, Repr

end FrameScript
