import AvbEntity.Json.Form
import AvbEntity.Flags

namespace AvbEntity

inductive MilanQuery where
  | milanInfo
deriving DecidableEq

namespace MilanQuery

instance : Inhabited MilanQuery := ⟨milanInfo⟩

instance : Json.Named MilanQuery where
  all := [milanInfo]
  name
    | milanInfo => "MilanInfo"

def command : MilanQuery → String
  | milanInfo => "GET_MILAN_INFO"

end MilanQuery

inductive DynamicQuery where
  | acquiredState
  | lockedState
  | inputStreamAudioMappings
  | outputStreamAudioMappings
  | inputStreamState
  | outputStreamState
  | outputStreamConnection
  | inputStreamInfo
  | outputStreamInfo
  | getAvbInfo
  | getAsPath
  | getEntityCounters
  | getAvbInterfaceCounters
  | getClockDomainCounters
  | getStreamInputCounters
  | getStreamOutputCounters
deriving DecidableEq

namespace DynamicQuery

instance : Inhabited DynamicQuery := ⟨acquiredState⟩

def code : DynamicQuery → UInt16
  | acquiredState => 0
  | lockedState => 1
  | inputStreamAudioMappings => 2
  | outputStreamAudioMappings => 3
  | inputStreamState => 4
  | outputStreamState => 5
  | outputStreamConnection => 6
  | inputStreamInfo => 7
  | outputStreamInfo => 8
  | getAvbInfo => 9
  | getAsPath => 10
  | getEntityCounters => 11
  | getAvbInterfaceCounters => 12
  | getClockDomainCounters => 13
  | getStreamInputCounters => 14
  | getStreamOutputCounters => 15

theorem code_injective {a b : DynamicQuery} (h : a.code = b.code) : a = b := by
  cases a <;> cases b <;> first | rfl | exact absurd h (by decide)

instance : Json.Named DynamicQuery where
  all := [acquiredState, lockedState, inputStreamAudioMappings, outputStreamAudioMappings,
    inputStreamState, outputStreamState, outputStreamConnection, inputStreamInfo,
    outputStreamInfo, getAvbInfo, getAsPath, getEntityCounters, getAvbInterfaceCounters,
    getClockDomainCounters, getStreamInputCounters, getStreamOutputCounters]
  name
    | acquiredState => "AcquiredState"
    | lockedState => "LockedState"
    | inputStreamAudioMappings => "InputStreamAudioMappings"
    | outputStreamAudioMappings => "OutputStreamAudioMappings"
    | inputStreamState => "InputStreamState"
    | outputStreamState => "OutputStreamState"
    | outputStreamConnection => "OutputStreamConnection"
    | inputStreamInfo => "InputStreamInfo"
    | outputStreamInfo => "OutputStreamInfo"
    | getAvbInfo => "GetAvbInfo"
    | getAsPath => "GetAsPath"
    | getEntityCounters => "GetEntityCounters"
    | getAvbInterfaceCounters => "GetAvbInterfaceCounters"
    | getClockDomainCounters => "GetClockDomainCounters"
    | getStreamInputCounters => "GetStreamInputCounters"
    | getStreamOutputCounters => "GetStreamOutputCounters"

def command : DynamicQuery → String
  | acquiredState => "ACQUIRE_ENTITY"
  | lockedState => "LOCK_ENTITY"
  | inputStreamAudioMappings => "GET_AUDIO_MAP (STREAM_INPUT)"
  | outputStreamAudioMappings => "GET_AUDIO_MAP (STREAM_OUTPUT)"
  | inputStreamState => "GET_RX_STATE_COMMAND"
  | outputStreamState => "GET_TX_STATE_COMMAND"
  | outputStreamConnection => "GET_TX_CONNECTION_COMMAND"
  | inputStreamInfo => "GET_STREAM_INFO (STREAM_INPUT)"
  | outputStreamInfo => "GET_STREAM_INFO (STREAM_OUTPUT)"
  | getAvbInfo => "GET_AVB_INFO"
  | getAsPath => "GET_AS_PATH"
  | getEntityCounters => "GET_COUNTERS (ENTITY)"
  | getAvbInterfaceCounters => "GET_COUNTERS (AVB_INTERFACE)"
  | getClockDomainCounters => "GET_COUNTERS (CLOCK_DOMAIN)"
  | getStreamInputCounters => "GET_COUNTERS (STREAM_INPUT)"
  | getStreamOutputCounters => "GET_COUNTERS (STREAM_OUTPUT)"

end DynamicQuery

inductive DescriptorQuery where
  | configurationName
  | audioUnitName
  | audioUnitSamplingRate
  | inputStreamName
  | inputStreamFormat
  | outputStreamName
  | outputStreamFormat
  | avbInterfaceName
  | clockSourceName
  | memoryObjectName
  | memoryObjectLength
  | audioClusterName
  | controlName
  | controlValues
  | clockDomainName
  | clockDomainSourceIndex
deriving DecidableEq

namespace DescriptorQuery

instance : Inhabited DescriptorQuery := ⟨configurationName⟩

def code : DescriptorQuery → UInt16
  | configurationName => 0
  | audioUnitName => 1
  | audioUnitSamplingRate => 2
  | inputStreamName => 3
  | inputStreamFormat => 4
  | outputStreamName => 5
  | outputStreamFormat => 6
  | avbInterfaceName => 7
  | clockSourceName => 8
  | memoryObjectName => 9
  | memoryObjectLength => 10
  | audioClusterName => 11
  | controlName => 12
  | controlValues => 13
  | clockDomainName => 14
  | clockDomainSourceIndex => 15

theorem code_injective {a b : DescriptorQuery} (h : a.code = b.code) : a = b := by
  cases a <;> cases b <;> first | rfl | exact absurd h (by decide)

instance : Json.Named DescriptorQuery where
  all := [configurationName, audioUnitName, audioUnitSamplingRate, inputStreamName,
    inputStreamFormat, outputStreamName, outputStreamFormat, avbInterfaceName, clockSourceName,
    memoryObjectName, memoryObjectLength, audioClusterName, controlName, controlValues,
    clockDomainName, clockDomainSourceIndex]
  name
    | configurationName => "ConfigurationName"
    | audioUnitName => "AudioUnitName"
    | audioUnitSamplingRate => "AudioUnitSamplingRate"
    | inputStreamName => "InputStreamName"
    | inputStreamFormat => "InputStreamFormat"
    | outputStreamName => "OutputStreamName"
    | outputStreamFormat => "OutputStreamFormat"
    | avbInterfaceName => "AvbInterfaceName"
    | clockSourceName => "ClockSourceName"
    | memoryObjectName => "MemoryObjectName"
    | memoryObjectLength => "MemoryObjectLength"
    | audioClusterName => "AudioClusterName"
    | controlName => "ControlName"
    | controlValues => "ControlValues"
    | clockDomainName => "ClockDomainName"
    | clockDomainSourceIndex => "ClockDomainSourceIndex"

def command : DescriptorQuery → String
  | configurationName => "GET_NAME (CONFIGURATION)"
  | audioUnitName => "GET_NAME (AUDIO_UNIT)"
  | audioUnitSamplingRate => "GET_SAMPLING_RATE (AUDIO_UNIT)"
  | inputStreamName => "GET_NAME (STREAM_INPUT)"
  | inputStreamFormat => "GET_STREAM_FORMAT (STREAM_INPUT)"
  | outputStreamName => "GET_NAME (STREAM_OUTPUT)"
  | outputStreamFormat => "GET_STREAM_FORMAT (STREAM_OUTPUT)"
  | avbInterfaceName => "GET_NAME (AVB_INTERFACE)"
  | clockSourceName => "GET_NAME (CLOCK_SOURCE)"
  | memoryObjectName => "GET_NAME (MEMORY_OBJECT)"
  | memoryObjectLength => "GET_MEMORY_OBJECT_LENGTH"
  | audioClusterName => "GET_NAME (AUDIO_CLUSTER)"
  | controlName => "GET_NAME (CONTROL)"
  | controlValues => "GET_CONTROL"
  | clockDomainName => "GET_NAME (CLOCK_DOMAIN)"
  | clockDomainSourceIndex => "GET_CLOCK_SOURCE"

end DescriptorQuery

def FlagFamily.enumerationSteps : FlagFamily where
  width := 16
  names := ["GET_MILAN_INFO", "REGISTER_UNSOL", "GET_STATIC_MODEL", "GET_DESCRIPTOR_DYNAMIC_INFO",
    "GET_DYNAMIC_INFO"]

abbrev EnumerationSteps := FlagSet .enumerationSteps

def EnumerationSteps.next? (s : EnumerationSteps) : Option EnumerationSteps :=
  ((List.range FlagFamily.enumerationSteps.names.length).map FlagSet.single).find? s.includes

end AvbEntity
