import CodeAudit.Schema.Rule
namespace CodeAudit

/-- Where in the search an analyzer's configuration was found. -/
inductive Tier
  | target
  | userDefault
  | bundledDefault
  | nowhere
  deriving DecidableEq, Repr

namespace Tier

def text : Tier → String
  | target => "local"
  | userDefault => "user-default"
  | bundledDefault => "package-default"
  | nowhere => "none"

def choices : List (String × Tier) :=
  [target, userDefault, bundledDefault, nowhere].map fun t => (t.text, t)

end Tier

/-- The configuration that governs an analyzer. -/
structure ToolConfig where
  path : Option Path := none
  tier : Tier := .nowhere
  deriving DecidableEq, Repr

namespace ToolConfig
open Schema

/-- There is a path exactly when it was found somewhere. -/
def Consistent (c : ToolConfig) : Prop := c.path = none ↔ c.tier = .nowhere

instance (c : ToolConfig) : Decidable c.Consistent :=
  inferInstanceAs (Decidable (c.path = none ↔ c.tier = .nowhere))

def check (c : ToolConfig) : Checked ToolConfig :=
  if c.Consistent then .ok c
  else reject (.rejected "path must be set exactly when a configuration source was found")

def ofFields (fields : Fields Empty) : Checked ToolConfig :=
  (Checked.start ToolConfig.mk
    |>.also (defaulted "path" none (nullable location) fields)
    |>.also (defaulted "source" .nowhere (oneOf false Tier.choices) fields)).bind check

def ofData : Rule Empty ToolConfig := Schema.record "ResolvedConfig" ofFields

/-- Defaults that come with this program do not allow changes to the code they judge. -/
def allowsFix (c : ToolConfig) : Bool := c.tier != .bundledDefault

end ToolConfig
end CodeAudit
