import AvbEntity.Model.Basic
import AvbEntity.Time.Timestamp

namespace AvbEntity

structure ModelDocument where
  modelId : Eui64
  cachedAt : Timestamp
  tree : EntityModel
deriving DecidableEq

namespace ModelDocument

instance : Json.Record ModelDocument (Eui64 × Timestamp × EntityModel × Unit) where
  names := ["entity_model_id", "cached_at", "tree"]
  split d := (d.modelId, d.cachedAt, d.tree, ())
  join := fun (m, c, t, ()) => ⟨m, c, t⟩
  join_split _ := rfl

def toText (d : ModelDocument) : String := (Json.encode d).pretty

def ofText? (s : String) : Option ModelDocument := Json.ofText? s >>= Json.decode?

end ModelDocument

end AvbEntity
