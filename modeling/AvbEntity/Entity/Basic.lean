import AvbEntity.Graph.Visit
import AvbEntity.Identity
import AvbEntity.Settings
import AvbEntity.Statistics

namespace AvbEntity

structure RemoteEntity where
  identity : EntityIdentity
  compatibility : CompatibilityFlags := CompatibilityFlags.base
  milan : Option MilanInfo := none
  isAdvertised : Bool := false
  ignoresCache : Bool := false
  isSubscribed : Bool := false
  acquireState : AcquireState := default
  owningController : Eui64 := .null
  lockState : LockState := default
  lockingController : Eui64 := .null
  linkStatuses : SortedMap UInt16 LinkStatus := ∅
  steps : EnumerationSteps := .none
  isFatal : Bool := false
  queries : QueryTable
  statistics : Statistics := {}
  model : EntityModel := {}
  graph : Option Graph := none

namespace RemoteEntity

def new (identity : EntityIdentity) (settings : Settings) (now : Duration) : RemoteEntity where
  identity
  queries := .new settings.policies
  statistics := Statistics.startEnumeration {} now

def id (e : RemoteEntity) : Eui64 := e.identity.entityId

def currentConfiguration (e : RemoteEntity) : UInt16 := e.model.dynamic.currentConfiguration

def setIdentifyControl (e : RemoteEntity) (index : UInt16) : RemoteEntity :=
  { e with identity := { e.identity with identifyControl := some index } }

def linkStatus (e : RemoteEntity) (index : UInt16) : LinkStatus :=
  if e.identity.supportsAem then e.linkStatuses.getD index .unknown else .unknown

def setLinkStatus (e : RemoteEntity) (index : UInt16) (status : LinkStatus) :
    LinkStatus × RemoteEntity :=
  (e.linkStatuses.getD index .unknown,
    { e with linkStatuses := e.linkStatuses.insert index status })

def addSteps (e : RemoteEntity) (steps : EnumerationSteps) : RemoteEntity :=
  { e with steps := e.steps.union steps }

def clearSteps (e : RemoteEntity) (steps : EnumerationSteps) : RemoteEntity :=
  { e with steps := e.steps.diff steps }

def fail (e : RemoteEntity) : RemoteEntity := { e with isFatal := true }

def expect (e : RemoteEntity) (k : QueryKind) (key : k.Key) : RemoteEntity :=
  { e with queries := e.queries.set k ((e.queries.get k).expect key) }

/-- Takes the answer of a query, and tells whether it was awaited. After a fatal error no answer is
taken. -/
def take (e : RemoteEntity) (k : QueryKind) (key : k.Key) : Bool × RemoteEntity :=
  if e.isFatal then (false, e)
  else
    let (awaited, rest) := (e.queries.get k).take key
    (awaited, { e with queries := e.queries.set k rest })

def allAnswered (e : RemoteEntity) (k : QueryKind) : Bool := (e.queries.get k).allSatisfied

def clearQueries (e : RemoteEntity) (k : QueryKind) : RemoteEntity :=
  { e with queries := e.queries.set k (e.queries.get k).clearAll }

def retry (e : RemoteEntity) (k : QueryKind) : RetryDecision × RemoteEntity :=
  let (decision, rest) := (e.queries.get k).retry
  (decision, { e with queries := e.queries.set k rest })

end RemoteEntity

end AvbEntity
