import AvbEntity.Descriptor.Values

namespace AvbEntity.AudioMapping

def replaceFirst (p : AudioMapping → Bool) (m : AudioMapping) :
    List AudioMapping → List AudioMapping
  | [] => []
  | x :: xs => if p x then m :: xs else x :: replaceFirst p m xs

def sameCluster (a b : AudioMapping) : Bool :=
  a.clusterOffset == b.clusterOffset && a.clusterChannel == b.clusterChannel

def sameStream (a b : AudioMapping) : Bool :=
  a.streamIndex == b.streamIndex && a.streamChannel == b.streamChannel

/-- Adds a mapping to an input port. The first mapping of the cluster channel decides: a mapping of
the same channel of another stream stands beside it, any other takes its place. -/
def addInput (map : List AudioMapping) (m : AudioMapping) : List AudioMapping :=
  match map.find? (sameCluster m) with
  | none => map ++ [m]
  | some found =>
    if found.streamIndex ≠ m.streamIndex ∧ found.streamChannel = m.streamChannel then map ++ [m]
    else replaceFirst (sameCluster m) m map

def addOutput (map : List AudioMapping) (m : AudioMapping) : List AudioMapping :=
  if map.any (sameStream m) then replaceFirst (sameStream m) m map else map ++ [m]

def addInputs (map ms : List AudioMapping) : List AudioMapping := ms.foldl addInput map

def addOutputs (map ms : List AudioMapping) : List AudioMapping := ms.foldl addOutput map

def removeAll (map ms : List AudioMapping) : List AudioMapping := ms.foldl List.erase map

end AvbEntity.AudioMapping
