import AvbEntity.Query.Table

namespace AvbEntity

structure Settings where
  policies : PerQuery RetryPolicy := .all {}
  cacheEnabled : Bool := true
deriving DecidableEq

instance : Inhabited Settings := ⟨{}⟩

end AvbEntity
