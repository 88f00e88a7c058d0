import RedfishCtl.Json

/-! Metric definitions and samples, and the two catalogs, with what a sample or a writer takes from
a definition. -/
namespace RedfishCtl.MetricModel

inductive Kind where
  | gauge
  | counter
  | cumulativeCounter
  deriving DecidableEq, Repr

structure MetricDefinition where
  name : String
  kind : Kind
  unit : Option String
  description : String
  prometheusName : String
  deriving DecidableEq, Repr

def definition (name : String) (kind : Kind) (unit : Option String) (description : String) :
    MetricDefinition := ⟨name,kind,unit,description,name⟩

structure MetricSample (φ : Type) where
  metric : String
  value : φ
  dimensions : List (String × String)
  metricType : Kind
  unit : Option String
  timestamp : Json

def sharedDefinitions : List MetricDefinition :=
  [definition "hw.scrape.ok" .gauge none "Exporter scrape success.",
   definition "hw.scrape.duration_seconds" .gauge (some "s") "Exporter scrape duration.",
   definition "hw.bmc.up" .gauge none "Per-BMC 0/1 liveness gauge (1 reachable, 0 unreachable).",
   definition "hw.build_info" .gauge none "Exporter build and telemetry schema identity.",
   definition "redfish_exporter_scrape_success" .gauge none
     "Whether the latest scrape completed without a supported collector failure.",
   definition "redfish_exporter_scrape_partial" .gauge none
     "Whether the latest scrape returned partial telemetry.",
   definition "redfish_exporter_scrape_duration_seconds" .gauge (some "s")
     "Duration of the latest exporter scrape.",
   definition "redfish_exporter_last_success_timestamp_seconds" .gauge (some "s")
     "Unix timestamp of the latest successful exporter scrape.",
   definition "redfish_exporter_collector_success" .gauge none
     "Whether a telemetry collector completed successfully.",
   definition "redfish_exporter_collector_supported" .gauge none
     "Whether the BMC supports a telemetry collector.",
   definition "redfish_exporter_collector_duration_seconds" .gauge (some "s")
     "Duration of one telemetry collector.",
   definition "redfish_exporter_collector_samples" .gauge none
     "Number of samples returned by one telemetry collector.",
   definition "redfish_exporter_collection_errors_total" .counter none
     "Cumulative telemetry collection errors."]

def supermicroDefinitions : List MetricDefinition :=
  [definition "hw.power" .gauge (some "W") "Power draw in watts.",
   definition "hw.energy_kwh" .counter (some "kWh") "Cumulative energy consumed in kilowatt-hours.",
   definition "hw.temperature" .gauge (some "Cel") "Temperature in Celsius.",
   definition "hw.voltage" .gauge (some "V") "Voltage reading.",
   definition "hw.fan_speed" .gauge (some "RPM") "Fan speed in revolutions per minute.",
   definition "hw.gpu.power" .gauge (some "W") "GPU power draw in watts.",
   definition "hw.gpu.temperature" .gauge (some "Cel") "GPU temperature.",
   definition "hw.gpu.clock_mhz" .gauge (some "MHz") "GPU operating clock.",
   definition "hw.gpu.compute.utilization" .gauge (some "%") "GPU compute engine utilization.",
   definition "hw.gpu.throttle.duration_seconds" .counter (some "s")
     "GPU throttle duration in seconds.",
   definition "hw.gpu.memory.bandwidth_utilization" .gauge (some "%")
     "GPU memory bandwidth utilization.",
   definition "hw.gpu.memory.capacity_utilization" .gauge (some "%")
     "GPU memory capacity utilization.",
   definition "hw.gpu.memory.clock_mhz" .gauge (some "MHz") "GPU memory operating speed.",
   definition "hw.gpu.memory.ecc_errors" .counter none "Cumulative GPU memory ECC error count.",
   definition "hw.gpu.memory.row_remap_count" .counter none
     "Cumulative GPU memory row-remap count.",
   definition "hw.gpu.memory.row_remapping_failed" .gauge none
     "GPU memory row-remapping failure state.",
   definition "hw.component.health" .gauge none "One-hot component health state.",
   definition "hw.component.health_rollup" .gauge none "One-hot component aggregate health state.",
   definition "hw.component.state" .gauge none "One-hot component enabled state.",
   definition "hw.component.last_reset_type" .gauge none "One-hot component last reset type.",
   definition "hw.power.edp_violation_state" .gauge none "One-hot EDP violation state.",
   definition "hw.power.break_performance_state" .gauge none
     "One-hot power-break performance state.",
   definition "hw.fabric.link_up" .gauge none "Fabric link-up state.",
   definition "hw.fabric.link_down_reason" .gauge none "One-hot fabric link-down reason.",
   definition "hw.fabric.port_speed" .gauge (some "Gbps") "Fabric port negotiated speed.",
   definition "hw.fabric.bit_error_rate" .gauge none "Fabric bit error rate.",
   definition "hw.fabric.effective_ber" .gauge none "Fabric effective bit error rate.",
   definition "hw.fabric.raw_ber" .gauge none "Fabric raw bit error rate.",
   definition "hw.fabric.rx_gbps" .gauge (some "Gbps") "Fabric receive bandwidth.",
   definition "hw.fabric.tx_gbps" .gauge (some "Gbps") "Fabric transmit bandwidth.",
   definition "hw.fabric.raw_rx_gbps" .gauge (some "Gbps") "Fabric raw receive bandwidth.",
   definition "hw.fabric.raw_tx_gbps" .gauge (some "Gbps") "Fabric raw transmit bandwidth.",
   definition "hw.fabric.rx_bytes" .counter (some "By") "Cumulative fabric receive bytes.",
   definition "hw.fabric.tx_bytes" .counter (some "By") "Cumulative fabric transmit bytes.",
   definition "hw.fabric.vl15_tx_bytes" .counter (some "By")
     "Cumulative fabric VL15 transmit bytes.",
   definition "hw.fabric.rx_frames" .counter none "Cumulative fabric receive frames.",
   definition "hw.fabric.tx_frames" .counter none "Cumulative fabric transmit frames.",
   definition "hw.fabric.vl15_tx_packets" .counter none "Cumulative fabric VL15 transmit packets.",
   definition "hw.fabric.crc_errors" .counter none "Cumulative fabric CRC errors.",
   definition "hw.fabric.effective_errors" .counter none "Cumulative fabric effective errors.",
   definition "hw.fabric.fec_errors" .counter none "Cumulative fabric FEC errors.",
   definition "hw.fabric.malformed_packets" .counter none "Cumulative malformed fabric packets.",
   definition "hw.fabric.raw_errors" .counter none "Cumulative fabric raw errors.",
   definition "hw.fabric.rx_errors" .counter none "Cumulative fabric receive errors.",
   definition "hw.fabric.rx_no_protocol_bytes" .counter (some "By")
     "Cumulative receive bytes without protocol.",
   definition "hw.fabric.rx_remote_physical_errors" .counter none
     "Cumulative receive remote physical errors.",
   definition "hw.fabric.rx_switch_relay_errors" .counter none
     "Cumulative receive switch relay errors.",
   definition "hw.fabric.symbol_errors" .counter none "Cumulative fabric symbol errors.",
   definition "hw.fabric.tx_discards" .counter none "Cumulative fabric transmit discards.",
   definition "hw.fabric.tx_no_protocol_bytes" .counter (some "By")
     "Cumulative transmit bytes without protocol.",
   definition "hw.fabric.tx_wait" .counter none "Cumulative fabric transmit wait events.",
   definition "hw.fabric.intentional_link_down_count" .counter none
     "Cumulative intentional link-down count.",
   definition "hw.fabric.link_down_count" .counter none "Cumulative link-down count.",
   definition "hw.fabric.link_error_recovery_count" .counter none
     "Cumulative link error recovery count.",
   definition "hw.fabric.unintentional_link_down_count" .counter none
     "Cumulative unintentional link-down count.",
   definition "hw.fabric.vl15_dropped" .counter none "Cumulative fabric VL15 dropped packets.",
   definition "hw.leak.state" .gauge none "Leak detector state.",
   definition "hw.fabric.adapter_present" .gauge none "Network adapter presence.",
   definition "hw.component_integrity.enabled" .gauge none "ComponentIntegrity enabled state."]

def ends (text ending : String) : Bool := ending.toList.isSuffixOf text.toList

def has (text part : String) : Bool := decide (part.toList <:+: text.toList)

def counterSuffixes : List String :=
  ["_bytes","_frames","_packets","_errors","_discards","_count","_wait"]

def inferMetricKind (name : String) : Kind :=
  if name = "hw.energy_kwh" then .counter
  else if counterSuffixes.any (ends name) then .counter
  else .gauge

def inferMetricUnit (name : String) : Option String :=
  let lowered := String.ofList (name.toList.map Char.toLower)
  if ends lowered "_bytes" then some "By"
  else if ends lowered "_gbps" || ends lowered "port_speed" then some "Gbps"
  else if ends lowered "_mhz" || has lowered "_freq_" || has lowered "frequency" then some "MHz"
  else if ends lowered "_seconds" then some "s"
  else if ends lowered "_kwh" || has lowered "energy" then some "kWh"
  else if has lowered "temp" || has lowered "temperature" then some "Cel"
  else if has lowered "power" then some "W"
  else if has lowered "voltage" then some "V"
  else if has lowered "percent" || has lowered "utilization" then some "%"
  else none

def find (definitions : List MetricDefinition) (name : String) : Option MetricDefinition :=
  definitions.find? fun d => d.name = name

def sharedMetricDefinition (name : String) : Option MetricDefinition := find sharedDefinitions name

def isGb300 (name : String) : Bool := "hw.gb300.".toList.isPrefixOf name.toList

def supermicroMetricDefinition (name : String) : Option MetricDefinition :=
  match find supermicroDefinitions name with
  | some d => some d
  | none =>
      if isGb300 name then
        some (definition name (inferMetricKind name) (inferMetricUnit name)
          "GB300 MetricReport numeric property.")
      else sharedMetricDefinition name

end RedfishCtl.MetricModel
