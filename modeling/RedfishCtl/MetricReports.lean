import RedfishCtl.Labels
import RedfishCtl.MetricModel
import RedfishCtl.PyText

/-! The samples of TelemetryService MetricReport rows. A MetricProperty gives the fields that
address a component, and one of three naming schemes a metric name and dimensions; rows with no
number become state metrics. -/
namespace RedfishCtl.MetricReports
open AssocList
open Labels (writeAll)
open MetricModel
open Binary64 (Datum)
open PyText (str strip stripChars)
open Binary64 (add mul ofRat zero)

/- `float` on a text (none is a ValueError), `str.isdigit` and the digits of a regular expression. -/
structure Builtins where
  float : String → Option Datum
  isDigit : Char → Bool
  isDecimal : Char → Bool

abbrev Row := List (String × Json)
abbrev Dims := List (String × String)

def get (row : Row) (key : String) : Json := (row.lookup key).getD .null

def present (text : String) : Option String := if text = "" then none else some text

def startsWith (text start : String) : Bool := start.toList.isPrefixOf text.toList

def lower (text : String) : String := String.ofList (text.toList.map Char.toLower)

/-! Numbers. -/

theorem oneCanonical : Binary64.Canonical (2^52) (-52) := by decide
def one : Datum := .finite ⟨false,2^52,-52,oneCanonical⟩

def finite : Datum → Option Datum
  | .finite x => some (.finite x)
  | _ => none

def asFloat (builtins : Builtins) : Json → Option Datum
  | .bool b => some (if b then one else zero)
  | .null => none
  | value =>
      let text := strip (str value)
      match builtins.float text with
      | some x => finite x
      | none =>
          if lower text = "true" then some one
          else if lower text = "false" then some zero
          else none

/- `\d+(?:\.\d+)?` before a unit letter; without it the group is skipped. -/
def durationPart (builtins : Builtins) (letter : Char) (text : List Char) :
    Option String × List Char :=
  let whole := text.takeWhile builtins.isDecimal
  let rest := text.dropWhile builtins.isDecimal
  let (amount,after) := match rest with
    | '.'::more =>
        if more.takeWhile builtins.isDecimal = [] then (whole,rest)
        else (whole ++ '.' :: more.takeWhile builtins.isDecimal,more.dropWhile builtins.isDecimal)
    | _ => (whole,rest)
  match after with
  | c::tail => if c = letter ∧ whole ≠ [] then (some (String.ofList amount),tail) else (none,text)
  | [] => (none,text)

def isoDuration (builtins : Builtins) (text : List Char) : Option (List (Option String)) :=
  match text with
  | 'P'::rest =>
      let (days,rest) := durationPart builtins 'D' rest
      match rest with
      | 'T'::rest =>
          let (hours,rest) := durationPart builtins 'H' rest
          let (minutes,rest) := durationPart builtins 'M' rest
          let (seconds,rest) := durationPart builtins 'S' rest
          if rest = [] then some [days,hours,minutes,seconds] else none
      | [] => some [days,none,none,none]
      | _ => none
  | _ => none

def multipliers : List ℚ := [86400,3600,60,1]

def addAmount (builtins : Builtins) (total : Datum) (part : Option String × ℚ) : Datum :=
  match part.1.bind builtins.float with
  | some amount => add total (mul amount (ofRat part.2))
  | none => total

def durationSeconds (builtins : Builtins) (value : Json) : Option Datum :=
  match asFloat builtins value with
  | some x => some x
  | none =>
      let text := if value.truthy then strip (str value) else ""
      match isoDuration builtins text.toList with
      | some amounts => finite ((amounts.zip multipliers).foldl (addAmount builtins) zero)
      | none => none

/-! Dimensions. -/

def requiredDimensions : List String := ["host.name","node","server.address","bmc.ip","vendor"]

def requireDimension (identity : Dims) (dims : Dims) (key : String) : Dims :=
  match dims.lookup key with
  | some _ => dims
  | none => insert key (((identity.lookup key).bind present).getD "unknown") dims

def baseDims (identity : Dims) : Dims :=
  requiredDimensions.foldl (requireDimension identity) (identity.filter fun p => p.2 ≠ "")

def dimChar (c : Char) : Char :=
  if c.isAlphanum || c = '_' || c = '.' || c = '-' || c = '/' then c else '_'

def dimValue (value : String) : String :=
  let cleaned := stripChars (· = '_') (String.ofList (value.toList.map dimChar))
  String.ofList ((if cleaned = "" then "unknown" else cleaned).toList.take 256)

def breakWords : List Char → List Char
  | [] => []
  | c::rest => match rest with
      | next::_ =>
          if (c.isLower || c.isDigit) && next.isUpper then c :: '_' :: breakWords rest
          else c::breakWords rest
      | [] => [c]

def joinWords : Bool → List Char → List Char
  | _,[] => []
  | inRun,c::rest =>
      if c.isAlphanum then c::joinWords false rest
      else if inRun then joinWords true rest
      else '_'::joinWords true rest

def snake (text : String) : String :=
  lower (stripChars (· = '_') (String.ofList (joinWords false (breakWords text.toList))))

def stateLabel (text : String) : String := (present (snake text)).getD "unknown"

def genericMetricName (prop : String) : String := "hw.gb300." ++ (present (snake prop)).getD "metric"

/-! MetricProperty. -/

inductive Source where
  | sensor
  | memory
  | processor
  deriving DecidableEq, Repr

inductive Field where
  | system
  | gpu
  | port
  | chassis
  | memory
  | index
  deriving DecidableEq, Repr

def Field.key : Field → String
  | .system => "system"
  | .gpu => "gpu"
  | .port => "port"
  | .chassis => "chassis"
  | .memory => "memory"
  | .index => "index"

structure PropInfo where
  property : String
  metricSource : Option Source
  sensor : Option String
  field : Field → Option String

def segments (text : List Char) : List String :=
  ((text.splitOn '/').map String.ofList).filter (· ≠ "")

def after (collection : String) : List String → Option String
  | [] => none
  | part::rest => if part = collection then rest.head? else after collection rest

def propertyName (builtins : Builtins) (parts frag : List String) : String × Option String :=
  match frag.reverse with
  | [] => (parts.getLastD "metric",none)
  | [name] => (name,none)
  | last::before::_ => if last.toList.all builtins.isDigit then (before,some last) else (last,none)

def metricSource (parts : List String) : Option Source :=
  if parts.contains "Sensors" then some .sensor
  else if parts.contains "MemoryMetrics" || parts.contains "Memory" ||
      parts.contains "MemorySummary" then some .memory
  else if parts.contains "ProcessorMetrics" then some .processor
  else none

def parseMetricProperty (builtins : Builtins) (prop : String) : PropInfo :=
  let path := prop.toList.takeWhile (· ≠ '#')
  let fragment := (prop.toList.dropWhile (· ≠ '#')).drop 1
  let parts := segments path
  let (name,index) := propertyName builtins parts (segments fragment)
  { property := name
    metricSource := metricSource parts
    sensor := after "Sensors" parts
    field := fun
      | .system => after "Systems" parts
      | .gpu => after "Processors" parts
      | .memory => after "Memory" parts
      | .port => after "Ports" parts
      | .chassis => after "Chassis" parts
      | .index => index }

def fieldDims (info : PropInfo) (fields : List Field) : List (String × Option String) :=
  fields.map fun f => (f.key,(info.field f).bind present)

/- `GPU_\d+` at the start of a text, with what follows it. -/
def gpuId (builtins : Builtins) (text : List Char) : Option (String × List Char) :=
  if "GPU_".toList.isPrefixOf text then
    let number := (text.drop 4).takeWhile builtins.isDecimal
    if number = [] then none
    else some (String.ofList ("GPU_".toList ++ number),(text.drop 4).dropWhile builtins.isDecimal)
  else none

/- `(GPU_\d+)(?:_|$)`; the end may be before a last line feed. -/
def gpuWord (builtins : Builtins) (text : List Char) : Option String :=
  match gpuId builtins text with
  | some (id,rest) =>
      if rest.head? = some '_' ∨ rest = [] ∨ rest = ['\n'] then some id else none
  | none => none

/- `_(GPU_\d+)(?:_|$)` anywhere in a text. -/
def gpuInside (builtins : Builtins) : List Char → Option String
  | [] => none
  | c::rest =>
      if c = '_' then (gpuWord builtins rest).or (gpuInside builtins rest)
      else gpuInside builtins rest

def splitText (separator : List Char) : ℕ → List Char → List Char → List (List Char)
  | _,current,[] => [current.reverse]
  | skip + 1,current,_::rest => splitText separator skip current rest
  | 0,current,c::rest =>
      if separator.isPrefixOf (c::rest) then
        current.reverse::splitText separator (separator.length - 1) [] rest
      else splitText separator 0 (c::current) rest

def gpuFromChassis (chassis : String) : Option String :=
  let whole := if startsWith chassis "GPU_" then some chassis else none
  match splitText "HGX_".toList 0 [] chassis.toList with
  | [_,second] => if "GPU_".toList.isPrefixOf second then some (String.ofList second) else whole
  | _ => whole

def gpuFromMetricInfo (builtins : Builtins) (info : PropInfo) : Option String :=
  let gpu := (info.field .gpu).getD ""
  if startsWith gpu "GPU_" then some gpu
  else match gpuId builtins ((info.field .memory).getD "").toList with
    | some (id,_) => some id
    | none => match (gpuFromChassis ((info.field .chassis).getD "")).bind present with
        | some id => some id
        | none =>
            let sensor := ((info.sensor.bind present).getD info.property).toList
            (gpuWord builtins sensor).or (gpuInside builtins sensor)

def isGpuTemperature (prop : String) : Bool :=
  has (lower prop) "temp" || has (lower prop) "temperature"

/-! Samples. -/

def keyError (metric : String) : PyError :=
  .other "KeyError" ("metric " ++ PyText.reprString metric ++ " is not a shared exporter metric")

def kindText : Kind → String
  | .gauge => "gauge"
  | .counter => "counter"
  | .cumulativeCounter => "cumulative_counter"

def sample (metric : String) (value : Datum) (dims : Dims) (timestamp : Json)
    (metricType : Option Kind) : Except PyError (MetricSample Datum) :=
  match supermicroMetricDefinition metric with
  | none => .error (keyError metric)
  | some d =>
      if metricType.getD d.kind = d.kind then
        .ok ⟨metric,value,dims,d.kind,d.unit,timestamp⟩
      else .error (.valueError (metric ++ " type '" ++ kindText (metricType.getD d.kind) ++
        "' does not match catalog type '" ++ kindText d.kind ++ "'"))

def fabricPropertyMetrics : List (String × String) :=
  [("BitErrorRate","hw.fabric.bit_error_rate"), ("CurrentSpeedGbps","hw.fabric.port_speed"),
   ("CRCErrorCount","hw.fabric.crc_errors"),
   ("EffectiveBER","hw.fabric.effective_ber"),
   ("EffectiveError","hw.fabric.effective_errors"),
   ("FECErrorCount","hw.fabric.fec_errors"),
   ("IntentionalLinkDownCount","hw.fabric.intentional_link_down_count"),
   ("LinkDownedCount","hw.fabric.link_down_count"),
   ("LinkErrorRecoveryCount","hw.fabric.link_error_recovery_count"),
   ("MalformedPackets","hw.fabric.malformed_packets"),
   ("NVLinkDataRxBandwidthGbps","hw.fabric.rx_gbps"),
   ("NVLinkDataTxBandwidthGbps","hw.fabric.tx_gbps"),
   ("NVLinkRawRxBandwidthGbps","hw.fabric.raw_rx_gbps"),
   ("NVLinkRawTxBandwidthGbps","hw.fabric.raw_tx_gbps"),
   ("RXBytes","hw.fabric.rx_bytes"),
   ("RXErrors","hw.fabric.rx_errors"),
   ("RXFrames","hw.fabric.rx_frames"),
   ("RXNoProtocolBytes","hw.fabric.rx_no_protocol_bytes"),
   ("RXRemotePhysicalErrors","hw.fabric.rx_remote_physical_errors"),
   ("RXSwitchRelayErrors","hw.fabric.rx_switch_relay_errors"),
   ("SymbolErrors","hw.fabric.symbol_errors"),
   ("TXBytes","hw.fabric.tx_bytes"),
   ("TXDiscards","hw.fabric.tx_discards"),
   ("TXFrames","hw.fabric.tx_frames"),
   ("TXNoProtocolBytes","hw.fabric.tx_no_protocol_bytes"),
   ("TXWait","hw.fabric.tx_wait"),
   ("TotalRawBER","hw.fabric.raw_ber"),
   ("TotalRawError","hw.fabric.raw_errors"),
   ("UnintentionalLinkDownCount","hw.fabric.unintentional_link_down_count"),
   ("VL15Dropped","hw.fabric.vl15_dropped"),
   ("VL15TXBytes","hw.fabric.vl15_tx_bytes"),
   ("VL15TXPackets","hw.fabric.vl15_tx_packets")]

def gpuComputeProperties : List (String × String) :=
  [("DMMAUtilizationPercent","dmma"), ("FP16ActivityPercent","fp16_activity"),
   ("FP32ActivityPercent","fp32_activity"),
   ("FP64ActivityPercent","fp64_activity"),
   ("GraphicsEngineActivityPercent","graphics_engine_activity"),
   ("HMMAUtilizationPercent","hmma"),
   ("IMMAUtilizationPercent","imma"),
   ("IntegerActivityUtilizationPercent","integer_activity"),
   ("NVDecInstanceUtilizationPercent","nvdec_instance"),
   ("NVDecUtilizationPercent","nvdec"),
   ("NVJpgInstanceUtilizationPercent","nvjpg_instance"),
   ("NVJpgUtilizationPercent","nvjpg"),
   ("NVOfaUtilizationPercent","nvofa"),
   ("SMActivityPercent","sm_activity"),
   ("SMOccupancyPercent","sm_occupancy"),
   ("SMUtilizationPercent","sm"),
   ("TensorCoreActivityPercent","tensor_core_activity")]

def gpuThrottleProperties : List (String × String) :=
  [("GlobalSoftwareViolationThrottleDuration","global_software_violation"),
   ("HardwareViolationThrottleDuration","hardware_violation"),
   ("PowerLimitThrottleDuration","power_limit"),
   ("ThermalLimitThrottleDuration","thermal_limit")]

def gpuMemoryProperties : List (String × String × String) :=
  [("BandwidthPercent","hw.gpu.memory.bandwidth_utilization","bandwidth"),
   ("CapacityUtilizationPercent","hw.gpu.memory.capacity_utilization","capacity"),
   ("OperatingSpeedMHz","hw.gpu.memory.clock_mhz","operating_speed")]

def gpuMemoryEccProperties : List (String × String) :=
  [("CorrectableECCErrorCount","correctable"), ("UncorrectableECCErrorCount","uncorrectable")]

def gpuMemoryRowRemapProperties : List (String × String) :=
  [("CorrectableRowRemappingCount","correctable"),
   ("HighAvailabilityBankCount","high_availability"),
   ("LowAvailabilityBankCount","low_availability"),
   ("MaxAvailabilityBankCount","max_availability"),
   ("NoAvailabilityBankCount","no_availability"),
   ("PartialAvailabilityBankCount","partial_availability"),
   ("UncorrectableRowRemappingCount","uncorrectable")]

def gpuMetricDims (identity : Dims) (info : PropInfo) (row : Row) (gpu : String) : Dims :=
  writeAll (writeAll (baseDims identity) [("source",some "metric-report"),("gpu",present gpu)])
    (fieldDims info [.system,.chassis,.memory] ++
      [("report",if (get row "Report").truthy then some (str (get row "Report")) else none)])

def gpuMemoryMetric (prop : String) : Option (String × String) :=
  match gpuMemoryProperties.lookup prop with
  | some found => some found
  | none => match gpuMemoryEccProperties.lookup prop with
      | some label => some ("hw.gpu.memory.ecc_errors",label)
      | none => match gpuMemoryRowRemapProperties.lookup prop with
          | some label => some ("hw.gpu.memory.row_remap_count",label)
          | none =>
              if prop = "RowRemappingFailed" then
                some ("hw.gpu.memory.row_remapping_failed","row_remapping_failed")
              else none

def gpuThrottleSample (builtins : Builtins) (prop : String) (row : Row) (dims : Dims) :
    Except PyError (Option (MetricSample Datum)) :=
  match gpuThrottleProperties.lookup prop,durationSeconds builtins (get row "MetricValue") with
  | some label,some seconds => some <$> sample "hw.gpu.throttle.duration_seconds" seconds
      (writeAll dims [("property",some label)]) (get row "Timestamp") (some .counter)
  | _,_ => .ok none

def gpuMetricReportSample (builtins : Builtins) (info : PropInfo) (row : Row) (identity : Dims) :
    Except PyError (Option (MetricSample Datum)) :=
  match (gpuFromMetricInfo builtins info).bind present with
  | none => .ok none
  | some gpu =>
      let prop := info.property
      let value := asFloat builtins (get row "MetricValue")
      let dims := gpuMetricDims identity info row gpu
      let make := fun metric value extra =>
        some <$> sample metric value (writeAll dims extra) (get row "Timestamp") none
      match info.metricSource with
      | some .sensor =>
          if isGpuTemperature prop then
            match value with
            | some value => make "hw.gpu.temperature" value
                [("property",some "temperature"),("sensor",some (dimValue prop))]
            | none => .ok none
          else .ok none
      | some .processor =>
          match value with
          | none => gpuThrottleSample builtins prop row dims
          | some value =>
              if prop = "OperatingSpeedMHz" then
                make "hw.gpu.clock_mhz" value [("property",some "operating_speed")]
              else match gpuComputeProperties.lookup prop with
                | some label => make "hw.gpu.compute.utilization" value
                    ([("property",some label)] ++ fieldDims info [.index])
                | none => gpuThrottleSample builtins prop row dims
      | some .memory =>
          match value,gpuMemoryMetric prop with
          | some value,some (metric,label) => make metric value [("property",some label)]
          | _,_ => .ok none
      | none => .ok none

def healthLabels : List String := ["ok","warning","critical"]
def stateLabels : List String :=
  ["enabled","disabled","standby_offline","standby_spare","in_test","starting","absent",
   "unavailable_offline","deferring","quiesced","updating","qualified"]
def linkDownReasons : List String := ["peer_reset_event"]
def resetTypes : List String := ["pf_flr","conventional","fundamental"]
def edpStates : List String := ["normal","asserted"]
def powerBreakStates : List String := ["normal","active"]

def reportLabel (row : Row) : String :=
  if (get row "Report").truthy then str (get row "Report") else "unknown"

def fabricOf (info : PropInfo) : String :=
  if startsWith (lower ((info.field .port).getD "")) "ib" then "ib" else "nvlink"

def allowed (labels : List String) (other label : String) : String :=
  if labels.contains label then label else other

def stateMetric (prop fabric label : String) : Option (String × List (String × String)) :=
  match prop with
  | "Health" => some ("hw.component.health",[("health",allowed healthLabels "unknown" label)])
  | "HealthRollup" =>
      some ("hw.component.health_rollup",[("health",allowed healthLabels "unknown" label)])
  | "State" => some ("hw.component.state",[("state",allowed stateLabels "unknown" label)])
  | "LinkDownReasonCode" => some ("hw.fabric.link_down_reason",
      [("reason",allowed linkDownReasons "other" label),("fabric",fabric)])
  | "EDPViolationState" =>
      some ("hw.power.edp_violation_state",[("state",allowed edpStates "other" label)])
  | "PowerBreakPerformanceState" => some ("hw.power.break_performance_state",
      [("state",allowed powerBreakStates "other" label)])
  | "LastResetType" =>
      some ("hw.component.last_reset_type",[("reset_type",allowed resetTypes "other" label)])
  | _ => none

def stateText (row : Row) : String :=
  if (get row "MetricValue").truthy then strip (str (get row "MetricValue")) else ""

def stateEnumSample (info : PropInfo) (row : Row) (identity : Dims) :
    Except PyError (Option (MetricSample Datum)) :=
  match present (stateText row) with
  | none => .ok none
  | some text =>
      let dims := writeAll (writeAll (baseDims identity)
        [("source",some "metric-report"),("property",present (dimValue info.property))])
        (fieldDims info [.system,.gpu,.port,.chassis,.memory,.index] ++
          [("report",some (reportLabel row))])
      match stateMetric info.property (fabricOf info) (stateLabel text) with
      | some (metric,labels) => some <$> sample metric one
          (writeAll dims (labels.map fun p => (p.1,some p.2))) (get row "Timestamp") none
      | none => .ok none

def fabricDims (identity : Dims) (info : PropInfo) (fabric : String) : Dims :=
  writeAll (writeAll (baseDims identity) [("source",some "fabric"),("fabric",present fabric)])
    (fieldDims info [.system,.gpu,.port])

def numberSeries (info : PropInfo) (row : Row) (identity : Dims) : String × Dims :=
  match fabricPropertyMetrics.lookup info.property with
  | some metric => (metric,
      writeAll (fabricDims identity info (fabricOf info)) [("report",some (reportLabel row))])
  | none => (genericMetricName info.property,
      writeAll (writeAll (writeAll (baseDims identity)
        [("source",some "metric-report"),("property",present (dimValue info.property))])
        (fieldDims info [.system,.gpu,.port,.chassis,.index])) [("report",some (reportLabel row))])

def rowSample (builtins : Builtins) (identity : Dims) (row : Row) :
    Except PyError (Option (MetricSample Datum)) :=
  if (get row "MetricProperty").truthy then do
    let info := parseMetricProperty builtins (str (get row "MetricProperty"))
    match ← gpuMetricReportSample builtins info row identity with
    | some made => .ok (some made)
    | none => match asFloat builtins (get row "MetricValue") with
        | none => stateEnumSample info row identity
        | some value =>
            let (metric,dims) := numberSeries info row identity
            some <$> sample metric value dims (get row "Timestamp") none
  else .ok none

def samplesFromMetricReportRows (builtins : Builtins) (identity : Dims) :
    List Row → Except PyError (List (MetricSample Datum))
  | [] => .ok []
  | row::rest => do
      let made ← rowSample builtins identity row
      let others ← samplesFromMetricReportRows builtins identity rest
      .ok (made.toList ++ others)

end RedfishCtl.MetricReports
