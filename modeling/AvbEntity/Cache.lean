import AvbEntity.Model.Document
import AvbEntity.Settings

namespace AvbEntity

structure ModelCache where
  isEnabled : Bool := true
  models : SortedMap Eui64 EntityModel := ∅
deriving DecidableEq

namespace ModelCache

instance : Inhabited ModelCache := ⟨{}⟩

def ofSettings (s : Settings) : ModelCache := { isEnabled := s.cacheEnabled }

def clear (c : ModelCache) : ModelCache := { c with models := ∅ }

def setEnabled (c : ModelCache) (enabled : Bool) : ModelCache :=
  if enabled then { c with isEnabled := true } else { isEnabled := false, models := ∅ }

def completeCount (c : ModelCache) (id : Eui64) : Nat :=
  match c.models.get? id with
  | some kept => kept.completeCount
  | none => 0

def wouldKeep (c : ModelCache) (id : Eui64) (m : EntityModel) : Bool :=
  c.isEnabled && id.isValid && 0 < m.completeCount && c.completeCount id ≤ m.completeCount

def offer (c : ModelCache) (id : Eui64) (m : EntityModel) : ModelCache :=
  if c.wouldKeep id m then { c with models := c.models.insert id m } else c

def isUsable (m : EntityModel) (configuration : UInt16) (allConfigurations : Bool) : Bool :=
  if allConfigurations then m.allComplete
  else match m.configurations.get? configuration with
    | some c => c.isComplete
    | none => false

def find? (c : ModelCache) (id : Eui64) (configuration : UInt16) (allConfigurations : Bool) :
    Option EntityModel :=
  if c.isEnabled then
    (c.models.get? id).filter fun m => isUsable m configuration allConfigurations
  else none

def remove (c : ModelCache) (id : Eui64) : Option EntityModel × ModelCache :=
  (c.models.get? id, { c with models := c.models.erase id })

def size (c : ModelCache) : Nat := c.models.size

def isEmpty (c : ModelCache) : Bool := c.models.isEmpty

def document? (c : ModelCache) (id : Eui64) (now : Timestamp) : Option ModelDocument :=
  (c.models.get? id).map fun m => ⟨id, now, m⟩

def load (c : ModelCache) (d : ModelDocument) : ModelCache := c.offer d.modelId d.tree

inductive Call where
  | offer (id : Eui64) (m : EntityModel)
  | load (d : ModelDocument)
  | find (id : Eui64) (configuration : UInt16) (allConfigurations : Bool)
  | remove (id : Eui64)
  | clear
  | setEnabled (enabled : Bool)

def apply (c : ModelCache) : Call → ModelCache
  | .offer id m => c.offer id m
  | .load d => c.load d
  | .find .. => c
  | .remove id => (c.remove id).2
  | .clear => c.clear
  | .setEnabled enabled => c.setEnabled enabled

def run (c : ModelCache) (calls : List Call) : ModelCache := calls.foldl apply c

end ModelCache

end AvbEntity
