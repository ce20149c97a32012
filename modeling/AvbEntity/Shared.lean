import AvbEntity.Entity.Operation
import AvbEntity.Lock.Threads

namespace AvbEntity

inductive AccessMode where
  | read
  | write
deriving DecidableEq

structure Access where
  thread : Thread
  entity : Nat
  mode : AccessMode
deriving DecidableEq

inductive AccessFault where
  | released (mode : AccessMode)
  | borrowed
  | lock (f : LockFault)
deriving DecidableEq

def AccessFault.message? : AccessFault → Option String
  | released .read => some "SharedEntity::read while the entity lock is released"
  | released .write => some "SharedEntity::write while the entity lock is released"
  | borrowed => none
  | lock f => some f.message

structure SharedEntities where
  threads : LockThreads := {}
  entities : List RemoteEntity
  accesses : List Access := []

namespace SharedEntities

def guarded? (s : SharedEntities) (t : Thread) (slot : Nat) : Option Nat :=
  match s.threads.kept? t slot with
  | some (.guard entity) => some entity
  | _ => none

/-- Whether an open access stands against another one: of two accesses to an entity, neither may
write. -/
def conflicts (s : SharedEntities) (entity : Nat) (mode : AccessMode) : Bool :=
  s.accesses.any fun a => a.entity == entity && (mode == .write || a.mode == .write)

def openAccess (s : SharedEntities) (t : Thread) (entity : Nat) (mode : AccessMode) :
    Except AccessFault SharedEntities :=
  if !s.threads.lock.isHeldBy t then .error (.released mode)
  else if s.conflicts entity mode then .error .borrowed
  else .ok { s with accesses := ⟨t, entity, mode⟩ :: s.accesses }

def closeAccess (s : SharedEntities) (t : Thread) : SharedEntities :=
  { s with accesses := s.accesses.eraseP fun a => a.thread == t }

def within {α : Type} (s : SharedEntities) (t : Thread) (entity : Nat) (mode : AccessMode)
    (body : SharedEntities → Except AccessFault (α × SharedEntities)) :
    Except AccessFault (α × SharedEntities) := do
  let (a, s) ← body (← s.openAccess t entity mode)
  return (a, s.closeAccess t)

/-- Runs a body while all levels of a thread's lock are given up. A fault in the body ends the scope
too. -/
def whileReleased {α : Type} (s : SharedEntities) (t : Thread)
    (body : UInt32 → SharedEntities → Except AccessFault (α × SharedEntities)) :
    Except AccessFault (α × SharedEntities) :=
  match s.threads.lock.releaseAll t with
  | .error f => .error (.lock f)
  | .ok (depth, lock) => do
    let (a, s) ← body depth { s with threads := { s.threads with lock } }
    return (a, { s with threads := { s.threads with
      lock := (s.threads.lock.reacquire? t depth).getD s.threads.lock } })

def idOf (s : SharedEntities) (entity : Nat) : Eui64 :=
  match s.entities[entity]? with
  | some e => e.id
  | none => .null

def modify (s : SharedEntities) (entity : Nat) (f : RemoteEntity → RemoteEntity) :
    SharedEntities :=
  { s with entities := s.entities.modify entity f }

inductive Nesting where
  | readInRead
  | writeInRead
  | readInWrite
  | writeInWrite
  | releaseInRead
  | readReleased
  | writeReleased
deriving DecidableEq

inductive NestingReply where
  | ids (outer inner : Eui64)
  | id (id : Eui64)
  | depth (n : UInt32)
  | done
deriving DecidableEq

def nest (s : SharedEntities) (t : Thread) (outer inner : Nat) :
    Nesting → Except AccessFault (NestingReply × SharedEntities)
  | .readInRead =>
    s.within t outer .read fun s => s.within t inner .read fun s =>
      .ok (.ids (s.idOf outer) (s.idOf inner), s)
  | .writeInRead =>
    s.within t outer .read fun s => s.within t inner .write fun s =>
      .ok (.id (s.idOf outer), s.modify inner (·.setName "nested"))
  | .readInWrite =>
    s.within t outer .write fun s => s.within t inner .read fun s =>
      .ok (.id (s.idOf inner), s.modify outer (·.setName "nested"))
  | .writeInWrite =>
    s.within t outer .write fun s => s.within t inner .write fun s =>
      .ok (.done, (s.modify outer (·.setName "outer")).modify inner (·.setName "inner"))
  | .releaseInRead =>
    s.within t outer .read fun s => s.whileReleased t fun depth s => .ok (.depth depth, s)
  | .readReleased =>
    s.whileReleased t fun _ s => s.within t inner .read fun s => .ok (.done, s)
  | .writeReleased =>
    s.whileReleased t fun _ s => s.within t inner .write fun s => .ok (.done, s)

inductive Call where
  | lock (entity : Nat)
  | tryLock (entity : Nat)
  | drop (slot : Nat)
  | releaseScope (slot : Nat)
  | enter (slot : Nat) (mode : AccessMode)
  | change (op : Operation)
  | leave

inductive Answer where
  | done
  | fault (f : AccessFault)
  | notWriting
  | lock (reply : LockReply)
deriving DecidableEq

def isContended (s : SharedEntities) (t : Thread) (entity : Nat) : Bool :=
  s.accesses.any fun a => a.entity == entity && a.thread != t

def attemptLock (s : SharedEntities) (t : Thread) (call : LockCall) : Answer × SharedEntities :=
  let (reply, threads) := s.threads.attempt t call
  (.lock reply, { s with threads })

def attempt (s : SharedEntities) (t : Thread) : Call → Answer × SharedEntities
  | .lock entity => s.attemptLock t (.guard entity)
  | .tryLock entity => s.attemptLock t (.tryGuard entity)
  | .drop slot => s.attemptLock t (.drop slot)
  | .releaseScope slot =>
    match s.guarded? t slot with
    | none => (.lock .noSlot, s)
    | some _ => s.attemptLock t .releaseScope
  | .enter slot mode =>
    match s.guarded? t slot with
    | none => (.lock .noSlot, s)
    | some entity =>
      if s.threads.lock.isHeldBy t && s.isContended t entity then (.lock .wouldBlock, s)
      else match s.openAccess t entity mode with
        | .ok s => (.done, s)
        | .error f => (.fault f, s)
  | .change op =>
    match s.accesses.find? fun a => a.thread == t with
    | some ⟨_, entity, .write⟩ => (.done, s.modify entity (·.apply op))
    | _ => (.notWriting, s)
  | .leave => (.done, s.closeAccess t)

def run (s : SharedEntities) (calls : List (Thread × Call)) : SharedEntities :=
  calls.foldl (fun s (t, call) => (s.attempt t call).2) s

end SharedEntities

end AvbEntity
