import AvbEntity.Query.Key
import AvbEntity.Query.Pending

namespace AvbEntity

inductive QueryKind where
  | registerUnsolicited
  | milanInfo
  | descriptor
  | dynamicInfo
  | descriptorInfo
deriving DecidableEq

namespace QueryKind

def all : List QueryKind := [registerUnsolicited, milanInfo, descriptor, dynamicInfo, descriptorInfo]

theorem mem_all (k : QueryKind) : k ∈ all := by
  cases k <;> decide

abbrev Key : QueryKind → Type
  | registerUnsolicited => Unit
  | milanInfo => MilanQuery
  | descriptor => UInt16 × DescriptorKey
  | dynamicInfo => UInt16 × DynamicQueryKey
  | descriptorInfo => UInt16 × DescriptorQueryKey

instance (k : QueryKind) : DecidableEq k.Key := by cases k <;> exact inferInstance

/-- What a query of a kind asks for, before it is packed: the configuration, where there is one, the
type of what is asked for, and its indices. -/
abbrev Question : QueryKind → Type
  | registerUnsolicited => Unit
  | milanInfo => MilanQuery
  | descriptor => UInt16 × DescriptorType × UInt16
  | dynamicInfo => UInt16 × DynamicQuery × UInt16 × UInt16
  | descriptorInfo => UInt16 × DescriptorQuery × UInt16

def pack : (k : QueryKind) → k.Question → k.Key
  | registerUnsolicited, _ => ()
  | milanInfo, query => query
  | descriptor, (configuration, type, index) => (configuration, .of type index)
  | dynamicInfo, (configuration, query, index, sub) => (configuration, .of query index sub)
  | descriptorInfo, (configuration, query, index) => (configuration, .of query index)

end QueryKind

structure PerQuery (α : Type) where
  registerUnsolicited : α
  milanInfo : α
  descriptor : α
  dynamicInfo : α
  descriptorInfo : α
deriving DecidableEq

namespace PerQuery

variable {α β : Type}

def get (p : PerQuery α) : QueryKind → α
  | .registerUnsolicited => p.registerUnsolicited
  | .milanInfo => p.milanInfo
  | .descriptor => p.descriptor
  | .dynamicInfo => p.dynamicInfo
  | .descriptorInfo => p.descriptorInfo

def all (a : α) : PerQuery α := ⟨a, a, a, a, a⟩

end PerQuery

structure QueryTable where
  registerUnsolicited : PendingQueries Unit
  milanInfo : PendingQueries MilanQuery
  descriptor : PendingQueries (UInt16 × DescriptorKey)
  dynamicInfo : PendingQueries (UInt16 × DynamicQueryKey)
  descriptorInfo : PendingQueries (UInt16 × DescriptorQueryKey)

namespace QueryTable

def new (policies : PerQuery RetryPolicy) : QueryTable where
  registerUnsolicited := .new policies.registerUnsolicited
  milanInfo := .new policies.milanInfo
  descriptor := .new policies.descriptor
  dynamicInfo := .new policies.dynamicInfo
  descriptorInfo := .new policies.descriptorInfo

def get (t : QueryTable) : (k : QueryKind) → PendingQueries k.Key
  | .registerUnsolicited => t.registerUnsolicited
  | .milanInfo => t.milanInfo
  | .descriptor => t.descriptor
  | .dynamicInfo => t.dynamicInfo
  | .descriptorInfo => t.descriptorInfo

def set (t : QueryTable) : (k : QueryKind) → PendingQueries k.Key → QueryTable
  | .registerUnsolicited, q => { t with registerUnsolicited := q }
  | .milanInfo, q => { t with milanInfo := q }
  | .descriptor, q => { t with descriptor := q }
  | .dynamicInfo, q => { t with dynamicInfo := q }
  | .descriptorInfo, q => { t with descriptorInfo := q }

@[simp] theorem get_set_self (t : QueryTable) (k : QueryKind) (q : PendingQueries k.Key) :
    (t.set k q).get k = q := by
  cases k <;> rfl

theorem get_set_ne (t : QueryTable) {k l : QueryKind} (h : l ≠ k) (q : PendingQueries k.Key) :
    (t.set k q).get l = t.get l := by
  cases k <;> cases l <;> first | rfl | exact absurd rfl h

@[simp] theorem get_new (policies : PerQuery RetryPolicy) (k : QueryKind) :
    (new policies).get k = .new (policies.get k) := by
  cases k <;> rfl

end QueryTable

end AvbEntity
