import AvbEntity.Descriptor.Models

namespace AvbEntity

inductive RedundancyIssue where
  | selfReference (stream : UInt16)
  | unknownStream (stream referenced : UInt16)
  | notReciprocal (stream referenced : UInt16)
  | sharedInterface (stream referenced interface : UInt16)
  | multipleAssociations (stream : UInt16)
deriving DecidableEq

namespace RedundancyIssue

def message : RedundancyIssue → String
  | .selfReference stream =>
    "stream " ++ toString stream.toNat ++ " references itself in its redundant association"
  | .unknownStream stream referenced =>
    "stream " ++ toString stream.toNat ++ " references stream " ++ toString referenced.toNat ++
      " which does not exist"
  | .notReciprocal stream referenced =>
    "stream " ++ toString referenced.toNat ++ " does not reference stream " ++
      toString stream.toNat ++ " back"
  | .sharedInterface stream referenced interface =>
    "stream " ++ toString referenced.toNat ++ " uses AVB_INTERFACE " ++
      toString interface.toNat ++ " already used by another member of stream " ++
      toString stream.toNat ++ "'s association"
  | .multipleAssociations stream =>
    "stream " ++ toString stream.toNat ++ " belongs to more than one redundant association"

instance : Json.Encode RedundancyIssue where
  encode
    | .selfReference stream =>
      .ofMembers [("SelfReference", .ofMembers [("stream", Json.encode stream)])]
    | .unknownStream stream referenced =>
      .ofMembers [("UnknownStream",
        .ofMembers [("stream", Json.encode stream), ("referenced", Json.encode referenced)])]
    | .notReciprocal stream referenced =>
      .ofMembers [("NotReciprocal",
        .ofMembers [("stream", Json.encode stream), ("referenced", Json.encode referenced)])]
    | .sharedInterface stream referenced interface =>
      .ofMembers [("SharedAvbInterface",
        .ofMembers [("stream", Json.encode stream), ("referenced", Json.encode referenced),
          ("avb_interface_index", Json.encode interface)])]
    | .multipleAssociations stream =>
      .ofMembers [("MultipleAssociations", .ofMembers [("stream", Json.encode stream)])]

end RedundancyIssue

structure RedundantGroup where
  virtualIndex : UInt16
  primary : UInt16
  members : SortedSet UInt16
deriving DecidableEq

instance : Json.Encode RedundantGroup where
  encode g := .ofMembers [("virtual_index", Json.encode g.virtualIndex),
    ("primary_stream", Json.encode g.primary), ("redundant_streams", Json.encode g.members)]

structure Redundancy where
  primary : SortedSet UInt16 := ∅
  secondary : SortedSet UInt16 := ∅
  groups : SortedMap UInt16 RedundantGroup := ∅
  issues : List RedundancyIssue := []
deriving DecidableEq

namespace Redundancy

instance : Inhabited Redundancy := ⟨{}⟩

instance : Json.Encode Redundancy where
  encode r := .ofMembers [("primary", Json.encode r.primary),
    ("secondary", Json.encode r.secondary), ("nodes", Json.encode r.groups),
    ("issues", Json.encode r.issues)]

def isPrimary (r : Redundancy) (stream : UInt16) : Bool := r.primary.contains stream

def isSecondary (r : Redundancy) (stream : UInt16) : Bool := r.secondary.contains stream

def isRedundant (r : Redundancy) (stream : UInt16) : Bool :=
  r.isPrimary stream || r.isSecondary stream

def isGrouped (r : Redundancy) (stream : UInt16) : Bool :=
  r.groups.values.any fun g => g.members.contains stream

abbrev Streams := SortedMap UInt16 StreamStatic

/-- Checks one stream that a stream names, and adds it to the members found so far, which stand in
the order of their interfaces. -/
def addMember (streams : Streams) (stream : UInt16) (members : SortedMap UInt16 UInt16)
    (referenced : UInt16) : Except RedundancyIssue (SortedMap UInt16 UInt16) :=
  if referenced = stream then .error (.selfReference stream)
  else match streams.get? referenced with
    | none => .error (.unknownStream stream referenced)
    | some other =>
      if !other.redundantStreams.contains stream then .error (.notReciprocal stream referenced)
      else if members.contains other.avbInterface then
        .error (.sharedInterface stream referenced other.avbInterface)
      else .ok (members.insert other.avbInterface referenced)

def association (streams : Streams) (stream : UInt16) (model : StreamStatic) :
    Except RedundancyIssue (SortedMap UInt16 UInt16) :=
  model.redundantStreams.toList.foldlM (addMember streams stream)
    ((∅ : SortedMap UInt16 UInt16).insert model.avbInterface stream)

/-- The index of the next group: one above the last, up to the greatest index. -/
def nextIndex (r : Redundancy) : UInt16 :=
  match r.groups.lastKey? with
  | none => 0
  | some last => if last = 0xFFFF then last else last + 1

def report (r : Redundancy) (issue : RedundancyIssue) : Redundancy :=
  { r with issues := r.issues ++ [issue] }

def addGroup (r : Redundancy) (ordered : List UInt16) : Redundancy :=
  match ordered with
  | [] => r
  | primary :: others =>
    let index := r.nextIndex
    { r with
      primary := r.primary.insert primary
      secondary := r.secondary.insertAll others
      groups := r.groups.insert index ⟨index, primary, .ofList ordered⟩ }

def addStream (streams : Streams) (r : Redundancy) (stream : UInt16) (model : StreamStatic) :
    Redundancy :=
  if model.redundantStreams.isEmpty then r
  else match association streams stream model with
    | .error issue => r.report issue
    | .ok members =>
      if r.isGrouped stream then r
      else match members.values.find? r.isGrouped with
        | some other => r.report (.multipleAssociations other)
        | none => r.addGroup members.values

def classify (streams : Streams) : Redundancy :=
  streams.toList.foldl (fun r e => r.addStream streams e.1 e.2) {}

end Redundancy

end AvbEntity
