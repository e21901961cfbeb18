import Scheduling.Config
import Scheduling.Wire.Layout

/-!
# Documents of configurations

The layout of a configuration, `RescheduleConfig`, whose fields can all be left out.
-/

namespace Scheduling.Wire

/-- The layout of a configuration. -/
def configLayout : Layout Config where
  title := "RescheduleConfig"
  Field := ConfigField
  fields := ConfigField.all
  mem_fields f := by cases f <;> simp [ConfigField.all]
  name := ConfigField.name
  nodup_names := by decide
  Slot _ := UInt64
  codec _ := .unsigned64
  fallback f := some f.default
  isOmitted _ _ := false
  get c f := c.get f
  build := Config.ofFields

/-- Configurations. -/
def config : Codec Config := configLayout.toCodec

end Scheduling.Wire
