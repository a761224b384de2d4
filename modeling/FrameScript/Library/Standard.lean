import FrameScript.Library.Containers
import FrameScript.Library.Convertors
import FrameScript.Library.Strings
import FrameScript.Library.System

set_option autoImplicit false

/-!
# The standard library

All native packages that come with the engine.

## Main definitions

* `Library.packages` — the packages in the order they are registered.
* `Library.register` — adds them to a registry.
* `Library.standard` — the registry that holds just them.
-/

namespace FrameScript

namespace Library

/-- The packages in the order they are registered. -/
def packages : List NativePackage :=
  [strings, arrays, maps, system, convertors]

/-- Adds the packages to a registry. -/
def register (r : Registry) : Option Fault × Registry :=
  r.registerPackages packages

/-- The registry that holds just the standard library. -/
def standard : Registry :=
  (register {}).2

end Library

end FrameScript
