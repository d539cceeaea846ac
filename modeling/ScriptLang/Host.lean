import ScriptLang.FileSystem
import ScriptLang.Native.Bridge
import ScriptLang.Wire.Network

/-!
# Hosts

The machine that the programs run on, as far as they can tell: its files, its libraries and its network.
-/

namespace ScriptLang

structure Host where
  files : FileSystem := {}
  bridge : Native.Bridge
  network : Wire.Network := {}
  /-- The most steps that a program may take before it is given up. -/
  fuel : Nat

end ScriptLang
