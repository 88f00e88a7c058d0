import RedfishCtl.AssocList

/-! How risky a Redfish action is, by its full type. An action that is not in the table is
destructive. -/
namespace RedfishCtl.ActionPolicy

inductive Destructiveness where
  | readOnly
  | reversible
  | destructive
  | irreversible
  deriving DecidableEq, Repr

def Destructiveness.value : Destructiveness → String
  | .readOnly => "read_only"
  | .reversible => "reversible"
  | .destructive => "destructive"
  | .irreversible => "irreversible"

def actionPolicy : List (String × Destructiveness) :=
  [("#ComponentIntegrity.SPDMGetSignedMeasurements",.readOnly),
    ("#ComponentIntegrity.TPMGetSignedMeasurements",.readOnly),
    ("#DellLCService.SupportAssistGetAutoCollectSchedule",.readOnly),
    ("#DellLCService.SupportAssistGetEULAStatus",.readOnly),
    ("#DelliDRACCardService.ExportCertificate",.readOnly),
    ("#DelliDRACCardService.ExportSSLCertificate",.readOnly),
    ("#DelliDRACCardService.FactoryIdentityExportCertificate",.readOnly),
    ("#DelliDRACCardService.VerifyHWProofOfPossession",.readOnly),
    ("#DellRaidService.CheckVDValues",.readOnly),("#EventService.SubmitTestEvent",.reversible),
    ("#DelliDRACCardService.TestSEKMServerConnection",.reversible),
    ("#HpeDirectoryTest.StartTest",.reversible),("#HpeDirectoryTest.StopTest",.reversible),
    ("#HpeiLOSnmpService.SendSNMPTestAlert",.reversible),
    ("#HpeiLOManagerNetworkService.SendTestAlertMail",.reversible),
    ("#HpeiLOManagerNetworkService.SendTestSyslog",.reversible),
    ("#DellLCService.TestNetworkShare",.reversible),
    ("#DelliDRACCardService.SendTestEmailAlert",.reversible),
    ("#DelliDRACCardService.SendTestSNMPTrap",.reversible),
    ("#DelliDRACCardService.TestRsyslogServerConnection",.reversible),
    ("#TelemetryService.SubmitTestMetricReport",.reversible),
    ("#VirtualMedia.InsertMedia",.reversible),("#VirtualMedia.EjectMedia",.reversible),
    ("#CertificateService.GenerateCSR",.reversible),
    ("#DelliDRACCardService.FactoryIdentityCertificateGenerateCSR",.reversible),
    ("#DelliDRACCardService.GenerateSEKMCSR",.reversible),
    ("#LogService.CollectDiagnosticData",.reversible),
    ("#NvidiaPowerSmoothing.ActivatePresetProfile",.reversible),
    ("#NvidiaPowerSmoothing.ApplyAdminOverrides",.reversible),
    ("#NvidiaWorkloadPower.EnableProfiles",.reversible),
    ("#NvidiaWorkloadPower.DisableProfiles",.reversible),
    ("#NvidiaDebugToken.GenerateToken",.reversible),("#NvidiaDebugToken.DisableToken",.reversible),
    ("#DellSwitchConnectionService.ServerPortConnectionRefresh",.reversible),
    ("#DellRaidService.BlinkTarget",.reversible),("#DellRaidService.UnBlinkTarget",.reversible),
    ("#DellLCService.UpdateOSAppHealthData",.reversible),
    ("#DellRaidService.StartPatrolRead",.reversible),
    ("#DellRaidService.StopPatrolRead",.reversible),
    ("#DellLCService.SupportAssistClearAutoCollectSchedule",.reversible),
    ("#DellLCService.SupportAssistSetAutoCollectSchedule",.reversible),
    ("#ComputerSystem.Reset",.destructive),("#Manager.Reset",.destructive),
    ("#Chassis.Reset",.destructive),("#NetworkAdapter.Reset",.destructive),
    ("#Control.ResetToDefaults",.destructive),("#Bios.ResetBios",.destructive),
    ("#Bios.ChangePassword",.destructive),("#DellBIOSService.DeviceRecovery",.destructive),
    ("#DellPersistentStorageService.VFlashStateChange",.destructive),
    ("#DellLCService.ClearProvisioningServer",.destructive),
    ("#LicenseService.Install",.destructive),("#HpeServerChassis.DisableMCTPOnServer",.destructive),
    ("#HpeiLOAccountService.ImportKerberosKeytab",.destructive),
    ("#DellLicenseManagementService.DeleteLicense",.destructive),
    ("#DellLicenseManagementService.ExportLicense",.destructive),
    ("#DellLicenseManagementService.ExportLicenseByDevice",.destructive),
    ("#DellLicenseManagementService.ExportLicenseByDeviceToNetworkShare",.destructive),
    ("#DellLicenseManagementService.ExportLicenseToNetworkShare",.destructive),
    ("#DellLicenseManagementService.ImportLicense",.destructive),
    ("#DellLicenseManagementService.ImportLicenseFromNetworkShare",.destructive),
    ("#DellRaidService.AssignSpare",.destructive),("#DellRaidService.UnassignSpare",.destructive),
    ("#DellLCService.ExportCompleteLCLog",.destructive),
    ("#DellLCService.ExportFactoryConfiguration",.destructive),
    ("#DellLCService.ExportHWInventory",.destructive),("#DellLCService.ExportLCLog",.destructive),
    ("#DellLCService.ExportSVGFile",.destructive),
    ("#DellLCService.ExportServerScreenShot",.destructive),
    ("#DellLCService.ExportTechSupportReport",.destructive),
    ("#DellLCService.ExportVideoLog",.destructive),
    ("#DellLCService.ExportePSADiagnosticsResult",.destructive),
    ("#DellSoftwareInstallationService.ClearUpdateSchedule",.destructive),
    ("#DellSoftwareInstallationService.SetUpdateSchedule",.destructive),
    ("#DellLCService.SupportAssistExportLastCollection",.destructive),
    ("#DellPersistentStorageService.AttachPartition",.destructive),
    ("#DellPersistentStorageService.CreatePartition",.destructive),
    ("#DellPersistentStorageService.CreatePartitionUsingImage",.destructive),
    ("#DellPersistentStorageService.DetachPartition",.destructive),
    ("#DellPersistentStorageService.ExportDataFromPartition",.destructive),
    ("#DellPersistentStorageService.ModifyPartition",.destructive),
    ("#DellRaidService.RenameVD",.destructive),("#LogService.ClearLog",.destructive),
    ("#TelemetryService.ClearMetricReports",.destructive),
    ("#TelemetryService.ResetMetricReportDefinitionsToDefaults",.destructive),
    ("#DellJobService.SetupJobQueue",.destructive),("#DellRaidService.SetAssetName",.destructive),
    ("#DellRaidService.SetBootVD",.destructive),
    ("#DellSystemManagementService.ShowErrorsOnLCD",.destructive),
    ("#DellLCService.ReInitiateAutoDiscovery",.destructive),
    ("#DellLCService.ReInitiateDHS",.destructive),("#Volume.CheckConsistency",.destructive),
    ("#DellRaidService.CancelBackgroundInitialization",.destructive),
    ("#DellRaidService.CancelCheckConsistency",.destructive),
    ("#DellRaidService.CancelRebuildPhysicalDisk",.destructive),
    ("#DellLCService.ExposeiSMInstallerToHostOS",.destructive),
    ("#DellRaidService.ClearControllerPreservedCache",.irreversible),
    ("#DellRaidService.ClearForeignConfig",.irreversible),
    ("#DellRaidService.ChangePDState",.destructive),
    ("#DellRaidService.PrepareToRemove",.destructive),
    ("#DellRaidService.RebuildPhysicalDisk",.destructive),
    ("#CertificateService.ReplaceCertificate",.destructive),("#SecureBoot.ResetKeys",.destructive),
    ("#SecureBootDatabase.ResetKeys",.destructive),("#NvidiaDebugToken.InstallToken",.destructive),
    ("#UpdateService.SimpleUpdate",.destructive),("#UpdateService.StartUpdate",.destructive),
    ("#SmcNodeManager.ClearAllPolicies",.destructive),
    ("#DellMetricService.ControlMetrics",.destructive),
    ("#DellMetricService.ExportThermalHistory",.destructive),
    ("#DelliDRACCardService.DisableiLKM",.destructive),
    ("#DelliDRACCardService.DisableSEKM",.destructive),
    ("#DelliDRACCardService.EnableiLKM",.destructive),
    ("#DelliDRACCardService.EnableSEKM",.destructive),("#DelliDRACCardService.Rekey",.destructive),
    ("#DelliDRACCardService.iLKMToSEKMTransition",.destructive),
    ("#DelliDRACCardService.DeleteGroup",.destructive),
    ("#DelliDRACCardService.JoinGroup",.destructive),
    ("#DelliDRACCardService.RemoveSelf",.destructive),("#Drive.SecureErase",.irreversible),
    ("#DellRaidService.ImportForeignConfig",.irreversible),
    ("#DellRaidService.UnLockSecureForeignConfig",.irreversible),
    ("#Manager.ResetToDefaults",.irreversible),("#HpeServerChassis.FactoryResetMCTP",.irreversible),
    ("#NvidiaRoTProtectedComponent.RevokeKeys",.irreversible),
    ("#NvidiaRoTProtectedComponent.UpdateMinimumSecurityVersion",.irreversible),
    ("#DellPersistentStorageService.DeletePartition",.irreversible),
    ("#DellPersistentStorageService.FormatPartition",.irreversible),
    ("#DellPersistentStorageService.InitializeMedia",.irreversible)]

def defaultLevel : Destructiveness := .destructive

def classify (fullActionType : String) : Destructiveness :=
  if fullActionType = "" then defaultLevel
  else (actionPolicy.lookup fullActionType).getD defaultLevel

def Permitted (level : Destructiveness) (confirm confirmIrreversible : Bool) : Prop :=
  match level with
  | .readOnly => True
  | .reversible => True
  | .destructive => confirm = true
  | .irreversible => confirm = true ∧ confirmIrreversible = true

instance (level : Destructiveness) (confirm confirmIrreversible : Bool) :
    Decidable (Permitted level confirm confirmIrreversible) := by
  cases level <;> unfold Permitted <;> infer_instance

end RedfishCtl.ActionPolicy
