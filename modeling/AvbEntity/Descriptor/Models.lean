import AvbEntity.Descriptor.Values

namespace AvbEntity

structure EntityStatic where
  vendorName : StringReference := .null
  modelName : StringReference := .null
deriving DecidableEq

instance : Inhabited EntityStatic := ⟨{}⟩

instance : Json.Record EntityStatic (StringReference × StringReference × Unit) where
  names := ["vendor_name_string", "model_name_string"]
  split m := (m.vendorName, m.modelName, ())
  join := fun (a, b, ()) => ⟨a, b⟩
  join_split _ := rfl

structure EntityDynamic where
  entityName : String := ""
  groupName : String := ""
  firmwareVersion : String := ""
  serialNumber : String := ""
  currentConfiguration : UInt16 := 0
  counters : Option Counters := none
deriving DecidableEq

instance : Inhabited EntityDynamic := ⟨{}⟩

instance : Json.Record EntityDynamic
    (String × String × String × String × UInt16 × Option Counters × Unit) where
  names := ["entity_name", "group_name", "firmware_version", "serial_number",
    "current_configuration", "counters"]
  split m := (m.entityName, m.groupName, m.firmwareVersion, m.serialNumber, m.currentConfiguration,
    m.counters, ())
  join := fun (a, b, c, d, e, f, ()) => ⟨a, b, c, d, e, f⟩
  join_split _ := rfl

structure EntityDescriptor where
  entityId : Eui64 := .null
  modelId : Eui64 := .null
  entityName : String := ""
  vendorName : StringReference := .null
  modelName : StringReference := .null
  firmwareVersion : String := ""
  groupName : String := ""
  serialNumber : String := ""
  configurationsCount : UInt16 := 0
  currentConfiguration : UInt16 := 0
deriving DecidableEq

instance : Inhabited EntityDescriptor := ⟨{}⟩

instance : Json.Record EntityDescriptor
    (Eui64 × Eui64 × String × StringReference × StringReference × String × String × String ×
      UInt16 × UInt16 × Unit) where
  names := ["entity_id", "entity_model_id", "entity_name", "vendor_name_string",
    "model_name_string", "firmware_version", "group_name", "serial_number", "configurations_count",
    "current_configuration"]
  split m := (m.entityId, m.modelId, m.entityName, m.vendorName, m.modelName, m.firmwareVersion,
    m.groupName, m.serialNumber, m.configurationsCount, m.currentConfiguration, ())
  join := fun (a, b, c, d, e, f, g, h, i, j, ()) => ⟨a, b, c, d, e, f, g, h, i, j⟩
  join_split _ := rfl

structure ConfigurationStatic where
  description : StringReference := .null
  descriptorCounts : SortedMap DescriptorType UInt16 := ∅
deriving DecidableEq

instance : Inhabited ConfigurationStatic := ⟨{}⟩

instance : Json.Record ConfigurationStatic
    (StringReference × SortedMap DescriptorType UInt16 × Unit) where
  names := ["localized_description", "descriptor_counts"]
  split m := (m.description, m.descriptorCounts, ())
  join := fun (a, b, ()) => ⟨a, b⟩
  join_split _ := rfl

structure ConfigurationDynamic where
  isActive : Bool := false
  objectName : String := ""
  localeBase : UInt16 := 0
  localeCount : UInt16 := 0
  localizedStrings : SortedMap UInt16 String := ∅
deriving DecidableEq

instance : Inhabited ConfigurationDynamic := ⟨{}⟩

instance : Json.Record ConfigurationDynamic
    (Bool × String × UInt16 × UInt16 × SortedMap UInt16 String × Unit) where
  names := ["is_active_configuration", "object_name", "selected_locale_base_index",
    "selected_locale_count_indexes", "localized_strings"]
  split m := (m.isActive, m.objectName, m.localeBase, m.localeCount, m.localizedStrings, ())
  join := fun (a, b, c, d, e, ()) => ⟨a, b, c, d, e⟩
  join_split _ := rfl

structure ConfigurationDescriptor where
  objectName : String := ""
  static : ConfigurationStatic := {}
deriving DecidableEq

instance : Inhabited ConfigurationDescriptor := ⟨{}⟩

instance : Json.Record ConfigurationDescriptor (String × ConfigurationStatic × Unit) where
  names := ["object_name", "static_model"]
  split m := (m.objectName, m.static, ())
  join := fun (a, b, ()) => ⟨a, b⟩
  join_split _ := rfl

structure AudioUnitStatic where
  description : StringReference := .null
  clockDomain : UInt16 := 0
  inputPortCount : UInt16 := 0
  inputPortBase : UInt16 := 0
  outputPortCount : UInt16 := 0
  outputPortBase : UInt16 := 0
  controlCount : UInt16 := 0
  controlBase : UInt16 := 0
  samplingRates : SortedSet UInt32 := ∅
deriving DecidableEq

instance : Inhabited AudioUnitStatic := ⟨{}⟩

instance : Json.Record AudioUnitStatic
    (StringReference × UInt16 × UInt16 × UInt16 × UInt16 × UInt16 × UInt16 × UInt16 ×
      SortedSet UInt32 × Unit) where
  names := ["localized_description", "clock_domain_index", "number_of_stream_input_ports",
    "base_stream_input_port", "number_of_stream_output_ports", "base_stream_output_port",
    "number_of_controls", "base_control", "sampling_rates"]
  split m := (m.description, m.clockDomain, m.inputPortCount, m.inputPortBase, m.outputPortCount,
    m.outputPortBase, m.controlCount, m.controlBase, m.samplingRates, ())
  join := fun (a, b, c, d, e, f, g, h, i, ()) => ⟨a, b, c, d, e, f, g, h, i⟩
  join_split _ := rfl

structure AudioUnitDynamic where
  objectName : String := ""
  samplingRate : UInt32 := 0
deriving DecidableEq

instance : Inhabited AudioUnitDynamic := ⟨{}⟩

instance : Json.Record AudioUnitDynamic (String × UInt32 × Unit) where
  names := ["object_name", "current_sampling_rate"]
  split m := (m.objectName, m.samplingRate, ())
  join := fun (a, b, ()) => ⟨a, b⟩
  join_split _ := rfl

structure AudioUnitDescriptor where
  objectName : String := ""
  samplingRate : UInt32 := 0
  static : AudioUnitStatic := {}
deriving DecidableEq

instance : Inhabited AudioUnitDescriptor := ⟨{}⟩

instance : Json.Record AudioUnitDescriptor (String × UInt32 × AudioUnitStatic × Unit) where
  names := ["object_name", "current_sampling_rate", "static_model"]
  split m := (m.objectName, m.samplingRate, m.static, ())
  join := fun (a, b, c, ()) => ⟨a, b, c⟩
  join_split _ := rfl

structure StreamStatic where
  description : StringReference := .null
  clockDomain : UInt16 := 0
  flags : StreamFlags := .none
  avbInterface : UInt16 := 0
  bufferLength : UInt32 := 0
  formats : SortedSet UInt64 := ∅
  redundantStreams : SortedSet UInt16 := ∅
deriving DecidableEq

instance : Inhabited StreamStatic := ⟨{}⟩

instance : Json.Record StreamStatic
    (StringReference × UInt16 × StreamFlags × UInt16 × UInt32 × SortedSet UInt64 ×
      SortedSet UInt16 × Unit) where
  names := ["localized_description", "clock_domain_index", "stream_flags", "avb_interface_index",
    "buffer_length", "formats", "redundant_streams"]
  split m := (m.description, m.clockDomain, m.flags, m.avbInterface, m.bufferLength, m.formats,
    m.redundantStreams, ())
  join := fun (a, b, c, d, e, f, g, ()) => ⟨a, b, c, d, e, f, g⟩
  join_split _ := rfl

structure StreamInputDynamic where
  objectName : String := ""
  format : UInt64 := 0
  connection : ConnectionInfo := {}
  info : Option StreamInfo := none
  isRunning : Option Bool := none
  counters : Option Counters := none
deriving DecidableEq

instance : Inhabited StreamInputDynamic := ⟨{}⟩

instance : Json.Record StreamInputDynamic
    (String × UInt64 × ConnectionInfo × Option StreamInfo × Option Bool × Option Counters ×
      Unit) where
  names := ["object_name", "stream_format", "connection_info", "stream_info", "is_stream_running",
    "counters"]
  split m := (m.objectName, m.format, m.connection, m.info, m.isRunning, m.counters, ())
  join := fun (a, b, c, d, e, f, ()) => ⟨a, b, c, d, e, f⟩
  join_split _ := rfl

structure StreamOutputDynamic where
  objectName : String := ""
  format : UInt64 := 0
  connections : SortedSet StreamIdentification := ∅
  info : Option StreamInfo := none
  isRunning : Option Bool := none
  counters : Option Counters := none
deriving DecidableEq

instance : Inhabited StreamOutputDynamic := ⟨{}⟩

instance : Json.Record StreamOutputDynamic
    (String × UInt64 × SortedSet StreamIdentification × Option StreamInfo × Option Bool ×
      Option Counters × Unit) where
  names := ["object_name", "stream_format", "connections", "stream_info", "is_stream_running",
    "counters"]
  split m := (m.objectName, m.format, m.connections, m.info, m.isRunning, m.counters, ())
  join := fun (a, b, c, d, e, f, ()) => ⟨a, b, c, d, e, f⟩
  join_split _ := rfl

structure StreamDescriptor where
  objectName : String := ""
  format : UInt64 := 0
  static : StreamStatic := {}
deriving DecidableEq

instance : Inhabited StreamDescriptor := ⟨{}⟩

instance : Json.Record StreamDescriptor (String × UInt64 × StreamStatic × Unit) where
  names := ["object_name", "current_format", "static_model"]
  split m := (m.objectName, m.format, m.static, ())
  join := fun (a, b, c, ()) => ⟨a, b, c⟩
  join_split _ := rfl

structure AvbInterfaceStatic where
  description : StringReference := .null
  macAddress : MacAddress := .replicate 6 0
  flags : UInt16 := 0
  clockIdentity : Eui64 := .null
  priority1 : UInt8 := 0
  clockClass : UInt8 := 0
  portNumber : UInt16 := 0
deriving DecidableEq

instance : Inhabited AvbInterfaceStatic := ⟨{}⟩

instance : Json.Record AvbInterfaceStatic
    (StringReference × MacAddress × UInt16 × Eui64 × UInt8 × UInt8 × UInt16 × Unit) where
  names := ["localized_description", "mac_address", "interface_flags", "clock_identity",
    "priority1", "clock_class", "port_number"]
  split m := (m.description, m.macAddress, m.flags, m.clockIdentity, m.priority1, m.clockClass,
    m.portNumber, ())
  join := fun (a, b, c, d, e, f, g, ()) => ⟨a, b, c, d, e, f, g⟩
  join_split _ := rfl

structure AvbInterfaceDynamic where
  objectName : String := ""
  info : Option AvbInfo := none
  asPath : Option AsPath := none
  counters : Option Counters := none
deriving DecidableEq

instance : Inhabited AvbInterfaceDynamic := ⟨{}⟩

instance : Json.Record AvbInterfaceDynamic
    (String × Option AvbInfo × Option AsPath × Option Counters × Unit) where
  names := ["object_name", "avb_info", "as_path", "counters"]
  split m := (m.objectName, m.info, m.asPath, m.counters, ())
  join := fun (a, b, c, d, ()) => ⟨a, b, c, d⟩
  join_split _ := rfl

structure AvbInterfaceDescriptor where
  objectName : String := ""
  static : AvbInterfaceStatic := {}
deriving DecidableEq

instance : Inhabited AvbInterfaceDescriptor := ⟨{}⟩

instance : Json.Record AvbInterfaceDescriptor (String × AvbInterfaceStatic × Unit) where
  names := ["object_name", "static_model"]
  split m := (m.objectName, m.static, ())
  join := fun (a, b, ()) => ⟨a, b⟩
  join_split _ := rfl

structure ClockSourceStatic where
  description : StringReference := .null
  type : ClockSourceType := .internal
  locationType : DescriptorType := .invalid
  locationIndex : UInt16 := 0
deriving DecidableEq

instance : Inhabited ClockSourceStatic := ⟨{}⟩

instance : Json.Record ClockSourceStatic
    (StringReference × ClockSourceType × DescriptorType × UInt16 × Unit) where
  names := ["localized_description", "clock_source_type", "clock_source_location_type",
    "clock_source_location_index"]
  split m := (m.description, m.type, m.locationType, m.locationIndex, ())
  join := fun (a, b, c, d, ()) => ⟨a, b, c, d⟩
  join_split _ := rfl

structure ClockSourceDynamic where
  objectName : String := ""
  flags : ClockSourceFlags := .none
  identifier : Eui64 := .null
deriving DecidableEq

instance : Inhabited ClockSourceDynamic := ⟨{}⟩

instance : Json.Record ClockSourceDynamic (String × ClockSourceFlags × Eui64 × Unit) where
  names := ["object_name", "clock_source_flags", "clock_source_identifier"]
  split m := (m.objectName, m.flags, m.identifier, ())
  join := fun (a, b, c, ()) => ⟨a, b, c⟩
  join_split _ := rfl

structure ClockSourceDescriptor where
  objectName : String := ""
  flags : ClockSourceFlags := .none
  identifier : Eui64 := .null
  static : ClockSourceStatic := {}
deriving DecidableEq

instance : Inhabited ClockSourceDescriptor := ⟨{}⟩

instance : Json.Record ClockSourceDescriptor
    (String × ClockSourceFlags × Eui64 × ClockSourceStatic × Unit) where
  names := ["object_name", "clock_source_flags", "clock_source_identifier", "static_model"]
  split m := (m.objectName, m.flags, m.identifier, m.static, ())
  join := fun (a, b, c, d, ()) => ⟨a, b, c, d⟩
  join_split _ := rfl

structure MemoryObjectStatic where
  description : StringReference := .null
  type : UInt16 := 0
  targetType : DescriptorType := .invalid
  targetIndex : UInt16 := 0
  startAddress : UInt64 := 0
  maximumLength : UInt64 := 0
deriving DecidableEq

instance : Inhabited MemoryObjectStatic := ⟨{}⟩

instance : Json.Record MemoryObjectStatic
    (StringReference × UInt16 × DescriptorType × UInt16 × UInt64 × UInt64 × Unit) where
  names := ["localized_description", "memory_object_type", "target_descriptor_type",
    "target_descriptor_index", "start_address", "maximum_length"]
  split m := (m.description, m.type, m.targetType, m.targetIndex, m.startAddress, m.maximumLength,
    ())
  join := fun (a, b, c, d, e, f, ()) => ⟨a, b, c, d, e, f⟩
  join_split _ := rfl

structure MemoryObjectDynamic where
  objectName : String := ""
  length : UInt64 := 0
deriving DecidableEq

instance : Inhabited MemoryObjectDynamic := ⟨{}⟩

instance : Json.Record MemoryObjectDynamic (String × UInt64 × Unit) where
  names := ["object_name", "length"]
  split m := (m.objectName, m.length, ())
  join := fun (a, b, ()) => ⟨a, b⟩
  join_split _ := rfl

structure MemoryObjectDescriptor where
  objectName : String := ""
  length : UInt64 := 0
  static : MemoryObjectStatic := {}
deriving DecidableEq

instance : Inhabited MemoryObjectDescriptor := ⟨{}⟩

instance : Json.Record MemoryObjectDescriptor (String × UInt64 × MemoryObjectStatic × Unit) where
  names := ["object_name", "length", "static_model"]
  split m := (m.objectName, m.length, m.static, ())
  join := fun (a, b, c, ()) => ⟨a, b, c⟩
  join_split _ := rfl

structure LocaleStatic where
  name : String := ""
  stringsCount : UInt16 := 0
  stringsBase : UInt16 := 0
deriving DecidableEq

instance : Inhabited LocaleStatic := ⟨{}⟩

instance : Json.Record LocaleStatic (String × UInt16 × UInt16 × Unit) where
  names := ["locale_id", "number_of_string_descriptors", "base_string_descriptor_index"]
  split m := (m.name, m.stringsCount, m.stringsBase, ())
  join := fun (a, b, c, ()) => ⟨a, b, c⟩
  join_split _ := rfl

structure StringsStatic where
  strings : List String := []
deriving DecidableEq

instance : Inhabited StringsStatic := ⟨{}⟩

instance : Json.Record StringsStatic (List String × Unit) where
  names := ["strings"]
  split m := (m.strings, ())
  join := fun (a, ()) => ⟨a⟩
  join_split _ := rfl

structure StreamPortStatic where
  clockDomain : UInt16 := 0
  flags : UInt16 := 0
  controlCount : UInt16 := 0
  controlBase : UInt16 := 0
  clusterCount : UInt16 := 0
  clusterBase : UInt16 := 0
  mapCount : UInt16 := 0
  mapBase : UInt16 := 0
  hasDynamicMap : Bool := false
deriving DecidableEq

instance : Inhabited StreamPortStatic := ⟨{}⟩

instance : Json.Record StreamPortStatic
    (UInt16 × UInt16 × UInt16 × UInt16 × UInt16 × UInt16 × UInt16 × UInt16 × Bool × Unit) where
  names := ["clock_domain_index", "port_flags", "number_of_controls", "base_control",
    "number_of_clusters", "base_cluster", "number_of_maps", "base_map", "has_dynamic_audio_map"]
  split m := (m.clockDomain, m.flags, m.controlCount, m.controlBase, m.clusterCount, m.clusterBase,
    m.mapCount, m.mapBase, m.hasDynamicMap, ())
  join := fun (a, b, c, d, e, f, g, h, i, ()) => ⟨a, b, c, d, e, f, g, h, i⟩
  join_split _ := rfl

structure StreamPortDynamic where
  mappings : List AudioMapping := []
deriving DecidableEq

instance : Inhabited StreamPortDynamic := ⟨{}⟩

instance : Json.Record StreamPortDynamic (List AudioMapping × Unit) where
  names := ["dynamic_audio_map"]
  split m := (m.mappings, ())
  join := fun (a, ()) => ⟨a⟩
  join_split _ := rfl

structure AudioClusterStatic where
  description : StringReference := .null
  signalType : Option DescriptorType := none
  signalIndex : UInt16 := 0
  signalOutput : UInt16 := 0
  pathLatency : UInt32 := 0
  blockLatency : UInt32 := 0
  channelCount : UInt16 := 0
  format : UInt8 := 0
deriving DecidableEq

instance : Inhabited AudioClusterStatic := ⟨{}⟩

instance : Json.Record AudioClusterStatic
    (StringReference × Option DescriptorType × UInt16 × UInt16 × UInt32 × UInt32 × UInt16 × UInt8 ×
      Unit) where
  names := ["localized_description", "signal_type", "signal_index", "signal_output",
    "path_latency", "block_latency", "channel_count", "format"]
  split m := (m.description, m.signalType, m.signalIndex, m.signalOutput, m.pathLatency,
    m.blockLatency, m.channelCount, m.format, ())
  join := fun (a, b, c, d, e, f, g, h, ()) => ⟨a, b, c, d, e, f, g, h⟩
  join_split _ := rfl

structure AudioClusterDynamic where
  objectName : String := ""
deriving DecidableEq

instance : Inhabited AudioClusterDynamic := ⟨{}⟩

instance : Json.Record AudioClusterDynamic (String × Unit) where
  names := ["object_name"]
  split m := (m.objectName, ())
  join := fun (a, ()) => ⟨a⟩
  join_split _ := rfl

structure AudioClusterDescriptor where
  objectName : String := ""
  static : AudioClusterStatic := {}
deriving DecidableEq

instance : Inhabited AudioClusterDescriptor := ⟨{}⟩

instance : Json.Record AudioClusterDescriptor (String × AudioClusterStatic × Unit) where
  names := ["object_name", "static_model"]
  split m := (m.objectName, m.static, ())
  join := fun (a, b, ()) => ⟨a, b⟩
  join_split _ := rfl

structure AudioMapStatic where
  mappings : List AudioMapping := []
deriving DecidableEq

instance : Inhabited AudioMapStatic := ⟨{}⟩

instance : Json.Record AudioMapStatic (List AudioMapping × Unit) where
  names := ["mappings"]
  split m := (m.mappings, ())
  join := fun (a, ()) => ⟨a⟩
  join_split _ := rfl

structure ControlStatic where
  description : StringReference := .null
  blockLatency : UInt32 := 0
  controlLatency : UInt32 := 0
  controlDomain : UInt16 := 0
  valueType : UInt16 := 0
  controlType : Eui64 := .null
  resetTime : UInt32 := 0
  signalType : Option DescriptorType := none
  signalIndex : UInt16 := 0
  signalOutput : UInt16 := 0
  valueCount : UInt16 := 0
  values : ControlValues := {}
deriving DecidableEq

instance : Inhabited ControlStatic := ⟨{}⟩

instance : Json.Record ControlStatic
    (StringReference × UInt32 × UInt32 × UInt16 × UInt16 × Eui64 × UInt32 × Option DescriptorType ×
      UInt16 × UInt16 × UInt16 × ControlValues × Unit) where
  names := ["localized_description", "block_latency", "control_latency", "control_domain",
    "control_value_type", "control_type", "reset_time", "signal_type", "signal_index",
    "signal_output", "number_of_values", "values"]
  split m := (m.description, m.blockLatency, m.controlLatency, m.controlDomain, m.valueType,
    m.controlType, m.resetTime, m.signalType, m.signalIndex, m.signalOutput, m.valueCount,
    m.values, ())
  join := fun (a, b, c, d, e, f, g, h, i, j, k, l, ()) => ⟨a, b, c, d, e, f, g, h, i, j, k, l⟩
  join_split _ := rfl

structure ControlDynamic where
  objectName : String := ""
  values : ControlValues := {}
deriving DecidableEq

instance : Inhabited ControlDynamic := ⟨{}⟩

instance : Json.Record ControlDynamic (String × ControlValues × Unit) where
  names := ["object_name", "values"]
  split m := (m.objectName, m.values, ())
  join := fun (a, b, ()) => ⟨a, b⟩
  join_split _ := rfl

structure ControlDescriptor where
  objectName : String := ""
  currentValues : ControlValues := {}
  static : ControlStatic := {}
deriving DecidableEq

instance : Inhabited ControlDescriptor := ⟨{}⟩

instance : Json.Record ControlDescriptor (String × ControlValues × ControlStatic × Unit) where
  names := ["object_name", "values_dynamic", "static_model"]
  split m := (m.objectName, m.currentValues, m.static, ())
  join := fun (a, b, c, ()) => ⟨a, b, c⟩
  join_split _ := rfl

structure ClockDomainStatic where
  description : StringReference := .null
  clockSources : List UInt16 := []
deriving DecidableEq

instance : Inhabited ClockDomainStatic := ⟨{}⟩

instance : Json.Record ClockDomainStatic (StringReference × List UInt16 × Unit) where
  names := ["localized_description", "clock_sources"]
  split m := (m.description, m.clockSources, ())
  join := fun (a, b, ()) => ⟨a, b⟩
  join_split _ := rfl

structure ClockDomainDynamic where
  objectName : String := ""
  clockSource : UInt16 := 0
  counters : Option Counters := none
deriving DecidableEq

instance : Inhabited ClockDomainDynamic := ⟨{}⟩

instance : Json.Record ClockDomainDynamic (String × UInt16 × Option Counters × Unit) where
  names := ["object_name", "clock_source_index", "counters"]
  split m := (m.objectName, m.clockSource, m.counters, ())
  join := fun (a, b, c, ()) => ⟨a, b, c⟩
  join_split _ := rfl

structure ClockDomainDescriptor where
  objectName : String := ""
  clockSource : UInt16 := 0
  static : ClockDomainStatic := {}
deriving DecidableEq

instance : Inhabited ClockDomainDescriptor := ⟨{}⟩

instance : Json.Record ClockDomainDescriptor (String × UInt16 × ClockDomainStatic × Unit) where
  names := ["object_name", "clock_source_index", "static_model"]
  split m := (m.objectName, m.clockSource, m.static, ())
  join := fun (a, b, c, ()) => ⟨a, b, c⟩
  join_split _ := rfl

end AvbEntity
