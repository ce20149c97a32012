import AvbEntity.Json.Form
import AvbEntity.Time.Duration

namespace AvbEntity

inductive CountedEvent where
  | retry
  | timeout
  | unexpectedResponse
  | unsolicited
deriving DecidableEq

/-- What is counted and measured about an entity. Moments are counted from a common zero. -/
structure Statistics where
  retries : UInt64 := 0
  timeouts : UInt64 := 0
  unexpectedResponses : UInt64 := 0
  unsolicited : UInt64 := 0
  responses : UInt64 := 0
  averageResponse : Duration := .zero
  enumerationStart : Option Duration := none
  enumerationTime? : Option Duration := none
deriving DecidableEq

structure StatisticsSnapshot where
  retries : UInt64 := 0
  timeouts : UInt64 := 0
  unexpectedResponses : UInt64 := 0
  unsolicited : UInt64 := 0
  averageResponseMillis : UInt64 := 0
  enumerationMillis : UInt64 := 0
deriving DecidableEq

instance : Inhabited StatisticsSnapshot := ⟨{}⟩

instance : Json.Record StatisticsSnapshot
    (UInt64 × UInt64 × UInt64 × UInt64 × UInt64 × UInt64 × Unit) where
  names := ["aecp_retry_counter", "aecp_timeout_counter", "aecp_unexpected_response_counter",
    "aem_aecp_unsolicited_counter", "aecp_response_average_time_ms", "enumeration_time_ms"]
  split s := (s.retries, s.timeouts, s.unexpectedResponses, s.unsolicited,
    s.averageResponseMillis, s.enumerationMillis, ())
  join := fun (r, t, u, n, a, e, ()) => ⟨r, t, u, n, a, e⟩
  join_split _ := rfl

namespace Statistics

instance : Inhabited Statistics := ⟨{}⟩

def counter (s : Statistics) : CountedEvent → UInt64
  | .retry => s.retries
  | .timeout => s.timeouts
  | .unexpectedResponse => s.unexpectedResponses
  | .unsolicited => s.unsolicited

def setCounter (s : Statistics) (event : CountedEvent) (n : UInt64) : Statistics :=
  match event with
  | .retry => { s with retries := n }
  | .timeout => { s with timeouts := n }
  | .unexpectedResponse => { s with unexpectedResponses := n }
  | .unsolicited => { s with unsolicited := n }

def count (s : Statistics) (event : CountedEvent) : Statistics :=
  s.setCounter event (s.counter event + 1)

/-- The span of a number of nanoseconds that a mean has reached: less than zero counts as zero, and
what does not fit 64 bits as the longest span. -/
def spanOfMean (n : Int) : Duration :=
  if n.toNat < UInt64.size then (Duration.ofNanos? n.toNat).getD .max else .max

/-- Takes a response time into the mean: the mean moves towards the sample by the part of their
difference that is one sample's share, rounded towards zero. -/
def addResponse (s : Statistics) (sample : Duration) : Statistics :=
  let responses := s.responses + 1
  let mean : Int := s.averageResponse.nanos
  { s with
    responses
    averageResponse := spanOfMean (mean + ((sample.nanos : Int) - mean).tdiv responses.toNat) }

def setAverageResponse (s : Statistics) (mean : Duration) : Statistics :=
  { s with averageResponse := mean, responses := if mean.nanos = 0 then 0 else 1 }

def startEnumeration (s : Statistics) (now : Duration) : Statistics :=
  { s with enumerationStart := some now, enumerationTime? := none }

def endEnumeration (s : Statistics) (now : Duration) : Statistics :=
  match s.enumerationStart with
  | some start => { s with enumerationTime? := some (now.since start) }
  | none => s

def setEnumerationTime (s : Statistics) (time : Duration) : Statistics :=
  { s with enumerationTime? := some time }

def enumerationTime (s : Statistics) : Duration := s.enumerationTime?.getD .zero

def millis64 (d : Duration) : UInt64 := UInt64.ofNat (min d.millis (UInt64.size - 1))

def snapshot (s : Statistics) : StatisticsSnapshot where
  retries := s.retries
  timeouts := s.timeouts
  unexpectedResponses := s.unexpectedResponses
  unsolicited := s.unsolicited
  averageResponseMillis := millis64 s.averageResponse
  enumerationMillis := millis64 s.enumerationTime

def restore (s : Statistics) (kept : StatisticsSnapshot) : Statistics :=
  let s := { s with
    retries := kept.retries
    timeouts := kept.timeouts
    unexpectedResponses := kept.unexpectedResponses
    unsolicited := kept.unsolicited }
  (s.setAverageResponse (.ofMillis kept.averageResponseMillis)).setEnumerationTime
    (.ofMillis kept.enumerationMillis)

end Statistics

end AvbEntity
