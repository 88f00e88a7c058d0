import RedfishCtl.GenericWrite
import RedfishCtl.JsonAccess
import RedfishCtl.Walk

/-! The eight collectors of an exporter scrape: a failed read ends the collector. Of what a
collector returns, the rows are kept that the exporter takes. -/
namespace RedfishCtl.Collectors
open JsonAccess
open Actions (isIn noAttribute)
open DellWrite (lastSegment)
open Walk (fold gather)

structure Request where
  uri : String
  expanded : Bool
  deriving DecidableEq, Repr

structure Exc where
  name : String
  isTimeout : Bool
  deriving DecidableEq, Repr

def className : PyError → String
  | .valueError _ => "ValueError"
  | .typeError _ => "TypeError"
  | .indexError _ => "IndexError"
  | .overflowError _ => "OverflowError"
  | .recursionError => "RecursionError"
  | .redfishApiError _ => "RedfishApiError"
  | .other name _ => name

abbrev Scan := Walk Request Json Exc

def ofPython {α : Type} (x : Except PyError α) : Scan α :=
  Walk.ofExcept (x.mapError fun e => ⟨className e,false⟩)

def query (uri : String) (expanded : Bool) : Scan Json := .read ⟨uri,expanded⟩ none .done

def queryOr (uri : String) (expanded : Bool) : Scan Json := do
  let data ← query uri expanded
  pure (orEmpty data)

def chassisUri : String := "/redfish/v1/Chassis"
def systemsUri : String := "/redfish/v1/Systems"

def members : Json → Except PyError (List String)
  | .obj m => do
      let items ← iterate ((m.lookup "Members").getD (.arr []))
      .ok (items.filterMap memberId)
  | _ => .ok []

def linkUri (data : Json) (key : String) : Option String :=
  (memberId (data.getD key)).filter (· ≠ "")

def rstripSlash (uri : String) : String := String.ofList (PyText.dropEnd (· = '/') uri.toList)

def resourceId (uri : String) : String := lastSegment (rstripSlash uri)

def status (data : Json) : Json := .obj (data.getD "Status").members

def listOf : Json → List Json
  | .arr items => items
  | _ => []

def reading (data : Json) (key : String) : Json :=
  match data.getD key with
  | .obj m => (m.lookup "Reading").getD .null
  | metric => metric

def powerLimit (data : Json) : Json :=
  match data.getD "PowerLimitWatts" with
  | .obj m => .obj (["Reading","SetPoint","DefaultSetPoint","AllowableMin","AllowableMax",
      "ControlMode"].map fun key => (key,(m.lookup key).getD .null))
  | _ => .null

structure Metrics where
  rows : List Json
  seen : List String

def metricRow (parentType parentUri metricsUri : String) (metrics : Json) : Json :=
  .obj [("ParentType",.str parentType),("ParentId",.str (resourceId parentUri)),
    ("ParentUri",.str parentUri),("MetricsUri",(metrics.get? "@odata.id").getD (.str metricsUri)),
    ("Name",metrics.getD "Name"),("PowerWatts",reading metrics "PowerWatts"),
    ("EnergyJoules",reading metrics "EnergyJoules"),("EnergykWh",reading metrics "EnergykWh"),
    ("TemperatureCelsius",reading metrics "TemperatureCelsius"),
    ("PowerLimitWatts",powerLimit metrics),("FanSpeedsPercent",metrics.getD "FanSpeedsPercent")]

def appendMetric (acc : Metrics) (parentType parentUri : String) (metricsUri : Option String) :
    Scan Metrics :=
  match metricsUri with
  | none => pure acc
  | some uri =>
      if uri ∈ acc.seen then pure acc
      else do
        let metrics ← queryOr uri false
        if metrics.isObj && metrics.truthy then
          pure ⟨acc.rows ++ [metricRow parentType parentUri uri metrics],uri::acc.seen⟩
        else pure acc

def appendChassisMetrics (acc : Metrics) : Scan Metrics := do
  let chassis ← query chassisUri false
  let uris ← ofPython (members chassis)
  fold (fun acc uri => do
    let data ← queryOr uri false
    appendMetric acc "Chassis" uri (linkUri data "EnvironmentMetrics")) acc uris

def appendSystemCollectionMetrics (collectionKey parentType : String) (acc : Metrics) :
    Scan Metrics := do
  let systems ← queryOr systemsUri false
  let uris ← ofPython (members systems)
  fold (fun acc uri => do
    let system ← queryOr uri false
    match linkUri system collectionKey with
    | none => pure acc
    | some collectionUri => do
        let collection ← queryOr collectionUri false
        let memberUris ← ofPython (members collection)
        fold (fun acc memberUri => do
          let member ← queryOr memberUri false
          appendMetric acc parentType memberUri (linkUri member "EnvironmentMetrics")) acc memberUris)
    acc uris

def environmentMetrics : Scan Json := do
  let acc ← appendChassisMetrics ⟨[],[]⟩
  let acc ← appendSystemCollectionMetrics "Processors" "Processor" acc
  let acc ← appendSystemCollectionMetrics "Memory" "Memory" acc
  pure (.obj [("metrics",.arr acc.rows)])

def readMembers (field : String) (collection : Json) : Scan (List (Json × Json)) :=
  gather (fun member => match member with
    | .obj m =>
        let uri := (m.lookup "@odata.id").getD .null
        if uri.truthy && (m.lookup field).isNone then do
          let data ← queryOr (PyText.str uri) false
          pure [(uri,data)]
        else pure [(uri,.obj m)]
    | _ => pure []) (listOf (collection.getD "Members"))

def temperatureRows (chassisId : String) (metrics : Json) : List Json :=
  (listOf (metrics.getD "TemperatureReadingsCelsius")).filterMap fun reading => match reading with
    | .obj m => some (.obj [("Chassis",.str chassisId),
        ("DeviceName",(m.lookup "DeviceName").getD .null),
        ("PhysicalContext",(m.lookup "PhysicalContext").getD .null),
        ("ReadingCelsius",(m.lookup "Reading").getD .null),
        ("DataSourceUri",(m.lookup "DataSourceUri").getD .null)])
    | _ => none

def chassisTemperatures (uri : String) : Scan (List Json) := do
  let data ← queryOr uri false
  match linkUri data "ThermalSubsystem" with
  | none => pure []
  | some thermalUri => do
      let thermal ← queryOr thermalUri false
      let temperatures ← match linkUri thermal "ThermalMetrics" with
        | none => pure []
        | some metricsUri => do
            let metrics ← queryOr metricsUri false
            pure (temperatureRows (resourceId uri) metrics)
      match linkUri thermal "Fans" with
      | none => pure temperatures
      | some fansUri => do
          let fans ← queryOr fansUri false
          let _ ← readMembers "Status" fans
          pure temperatures

def thermal : Scan Json := do
  let chassis ← query chassisUri false
  let uris ← ofPython (members chassis)
  let rows ← gather chassisTemperatures uris
  pure (.obj [("temperature_readings",.arr rows)])

def sensorRow (chassisUri : String) (data : Json) : List Json :=
  if (data.get? "Reading").isSome then
    [.obj [("Chassis",.str (lastSegment chassisUri)),("Name",data.getD "Name"),
      ("Reading",data.getD "Reading"),("ReadingUnits",data.getD "ReadingUnits"),
      ("ReadingType",data.getD "ReadingType"),("Health",(data.getD "Status").getD "Health")]]
  else []

def sensorMember (chassisUri : String) (member : Json) : Scan (List Json) :=
  match member with
  | .obj m =>
      if (m.lookup "Reading").isSome then pure (sensorRow chassisUri (.obj m))
      else
        let uri := (m.lookup "@odata.id").getD .null
        if uri.truthy then do
          let data ← query (PyText.str uri) false
          pure (sensorRow chassisUri data)
        else pure []
  | _ => pure []

def sensorCollection (uri : String) (doExpanded : Bool) : Scan Json :=
  .read ⟨uri,true⟩ (if doExpanded then none else some ⟨uri,false⟩) fun data => pure (orEmpty data)

def linked (data : Json) (key : String) : Except PyError (Option String) := do
  let value ← link data key
  .ok (if value.truthy then some (PyText.str value) else none)

def chassisSensors (doExpanded : Bool) (uri : String) : Scan (List Json) := do
  let data ← queryOr uri false
  match ← ofPython (linked data "Sensors") with
  | none => pure []
  | some sensorsUri => do
      let collection ← sensorCollection sensorsUri doExpanded
      let listed ← ofPython (getOr collection "Members" (.arr []))
      let items ← ofPython (iterate listed)
      gather (sensorMember uri) items

def sensors (doExpanded : Bool) : Scan Json := do
  let chassis ← query chassisUri false
  let uris ← ofPython (members chassis)
  let rows ← gather (chassisSensors doExpanded) uris
  pure (.arr rows)

/- `_link` of `nvlink-ports`: the body behind a link, or an empty mapping. -/
def follow (data : Json) (key : String) : Scan Json := do
  match ← ofPython (linked data key) with
  | none => pure (.obj [])
  | some uri => queryOr uri false

def orElse (value default : Json) : Json := if value.truthy then value else default

def portRow (systemUri portUri : String) (gpuId port : Json) : Scan (List Json) := do
  let metrics ← follow port "Metrics"
  let oem ← ofPython (get metrics "Oem")
  let nvidia ← ofPython (get (orEmpty oem) "Nvidia")
  let rate ← ofPython (get (orEmpty nvidia) "BitErrorRate")
  pure [.obj [("System",.str (lastSegment systemUri)),("GPU",gpuId),
    ("Port",orElse (port.getD "Id") (.str (lastSegment portUri))),
    ("LinkState",port.getD "LinkState"),("LinkStatus",port.getD "LinkStatus"),
    ("CurrentSpeedGbps",port.getD "CurrentSpeedGbps"),("MaxSpeedGbps",port.getD "MaxSpeedGbps"),
    ("RXBytes",metrics.getD "RXBytes"),("TXBytes",metrics.getD "TXBytes"),("BitErrorRate",rate)]]

def processorPorts (systemUri processorUri : String) : Scan (List Json) := do
  let processor ← queryOr processorUri false
  let kind ← ofPython (get processor "ProcessorType")
  if kind = .str "GPU" then
    let gpuId := orElse (processor.getD "Id") (.str (lastSegment processorUri))
    let ports ← follow processor "Ports"
    let uris ← ofPython (members ports)
    gather (fun portUri => do
      let port ← queryOr portUri false
      let protocol ← ofPython (get port "PortProtocol")
      if protocol = .str "NVLink" then portRow systemUri portUri gpuId port else pure []) uris
  else pure []

def nvlinkPorts : Scan Json := do
  let systems ← queryOr systemsUri false
  let uris ← ofPython (members systems)
  let rows ← gather (fun systemUri => do
    let system ← queryOr systemUri false
    let processors ← follow system "Processors"
    let processorUris ← ofPython (members processors)
    gather (processorPorts systemUri) processorUris) uris
  pure (.arr rows)

def reportRows (reportUri : String) : Scan (List Json) := do
  let report ← queryOr reportUri false
  let values ← ofPython (getOr report "MetricValues" (.arr []))
  let samples ← ofPython (iterate values)
  pure (samples.filterMap fun sample => match sample with
    | .obj m => some (.obj (("Report",.str (lastSegment reportUri))::
        ["MetricId","MetricProperty","MetricValue","Timestamp"].map fun key =>
          (key,(m.lookup key).getD .null)))
    | _ => none)

def metricReports (doExpanded : Bool) : Scan Json := do
  let collection ← queryOr "/redfish/v1/TelemetryService/MetricReports" doExpanded
  let uris ← ofPython (members collection)
  let rows ← gather reportRows uris
  pure (.arr rows)

def detectorRow (chassisId : String) (entry : Json × Json) : Option Json :=
  let (uri,detector) := entry
  if detector.isObj then
    some (.obj [("Chassis",.str chassisId),("Id",detector.getD "Id"),("Name",detector.getD "Name"),
      ("DetectorState",detector.getD "DetectorState"),
      ("LeakDetectorType",detector.getD "LeakDetectorType"),
      ("State",(status detector).getD "State"),("Health",(status detector).getD "Health"),
      ("Uri",(detector.get? "@odata.id").getD uri)])
  else none

def nestedLink : Json → List String → Option String
  | j,[] => (memberId j).filter (· ≠ "")
  | .obj m,key::rest => nestedLink ((m.lookup key).getD .null) rest
  | _,_::_ => none

def leakDetection (chassisId : String) (thermal : Json) : Scan (List Json) :=
  match linkUri thermal "LeakDetection" with
  | none => pure []
  | some leakUri => do
      let leak ← queryOr leakUri false
      match linkUri leak "LeakDetectors" with
      | none => pure []
      | some detectorsUri => do
          let collection ← queryOr detectorsUri false
          let detectors ← readMembers "DetectorState" collection
          pure (detectors.filterMap (detectorRow chassisId))

def chassisDetectors (uri : String) : Scan (List Json) := do
  let data ← queryOr uri false
  let thermal ← match linkUri data "ThermalSubsystem" with
    | none => pure (.obj [])
    | some thermalUri => queryOr thermalUri false
  let rows ← leakDetection (resourceId uri) thermal
  match nestedLink data ["Oem","Nvidia","Policies"] with
  | none => pure rows
  | some policiesUri => do
      let policies ← queryOr policiesUri false
      let uris ← ofPython (members policies)
      let _ ← gather (fun policyUri => do
        let policy ← queryOr policyUri false
        pure [policy]) uris
      pure rows

def leakDetectors : Scan Json := do
  let chassis ← query chassisUri false
  let uris ← ofPython (members chassis)
  let rows ← gather chassisDetectors uris
  pure (.obj [("detectors",.arr rows)])

def mentions (text word : String) : Bool := decide (word.toList <:+: text.toLower.toList)

def deviceClass (model : Json) : Except PyError String :=
  match orElse model (.str "") with
  | .str text => .ok (if ["bluefield","bf3","bf2"].any (mentions text) then "DPU" else "NIC")
  | j => .error (noAttribute j "lower")

def adapterRow (chassisUri adapterUri : String) : Scan (List Json) := do
  let adapter ← queryOr adapterUri false
  let state ← ofPython (get adapter "Status")
  let device ← ofPython (deviceClass (adapter.getD "Model"))
  pure [.obj [("Chassis",.str (lastSegment chassisUri)),
    ("Id",orElse (adapter.getD "Id") (.str (lastSegment adapterUri))),("Model",adapter.getD "Model"),
    ("Manufacturer",adapter.getD "Manufacturer"),("DeviceClass",.str device),
    ("SerialNumber",adapter.getD "SerialNumber"),("PartNumber",adapter.getD "PartNumber"),
    ("Health",(orEmpty state).getD "Health")]]

def networkAdapters (doExpanded : Bool) : Scan Json := do
  let chassis ← query chassisUri false
  let uris ← ofPython (members chassis)
  let rows ← gather (fun uri => do
    let data ← queryOr uri false
    match ← ofPython (linked data "NetworkAdapters") with
    | none => pure []
    | some adaptersUri => do
        let collection ← queryOr adaptersUri doExpanded
        let adapterUris ← ofPython (members collection)
        gather (adapterRow uri) adapterUris) uris
  pure (.arr rows)

def certUri (spdm : Json) : Except PyError Json :=
  if spdm.isObj then do
    let identity ← get (orEmpty (spdm.getD "IdentityAuthentication")) "ResponderAuthentication"
    let certificate ← get (orEmpty identity) "ComponentCertificate"
    .ok ((orEmpty certificate).getD "@odata.id")
  else .ok .null

def integrityRow (leafUri : String) : Scan (List Json) := do
  let leaf ← queryOr leafUri false
  let id ← ofPython (get leaf "Id")
  let certificate ← ofPython (certUri (leaf.getD "SPDM"))
  pure [.obj [("Id",orElse id (.str (lastSegment leafUri))),
    ("Type",leaf.getD "ComponentIntegrityType"),("Version",leaf.getD "ComponentIntegrityTypeVersion"),
    ("Enabled",leaf.getD "ComponentIntegrityEnabled"),
    ("TargetComponentURI",leaf.getD "TargetComponentURI"),("CertificateURI",certificate)]]

def componentIntegrity (doExpanded : Bool) : Scan Json := do
  let collection ← queryOr "/redfish/v1/ComponentIntegrity" doExpanded
  let uris ← ofPython (members collection)
  let rows ← gather integrityRow uris
  pure (.arr rows)

end RedfishCtl.Collectors
