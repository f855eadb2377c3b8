import OdpPlatform.PatinaBootBoundary
import OdpPlatform.BootPartitionVersion
import OdpPlatform.PatinaRamDisk
import OdpPlatform.PatinaFallbackReached
import OdpPlatform.PatinaBootDiscovery
import OdpPlatform.PatinaPathExpansion
import OdpPlatform.PatinaFallbackSources
import OdpPlatform.PatinaAttemptTrace
import OdpPlatform.BootPartitionLoaders
import OdpPlatform.EcSerialStream
import OdpPlatform.EcScriptBindings
import OdpPlatform.NvmeBpWriteSkip
import OdpPlatform.PatinaInterleave
import OdpPlatform.PatinaConnectPasses
import OdpPlatform.PatinaRamDiskBlocks
import OdpPlatform.PatinaLogPageTiling
import OdpPlatform.AcpiRequestLayout
import OdpPlatform.AcpiPackageGrammar
import OdpPlatform.AcpiSourceMethods
import OdpPlatform.EcScriptRelaid
import OdpPlatform.PatinaChainloadVolume
import OdpPlatform.NvmeBpWriteReport
import OdpPlatform.PatinaConsoleDevices
import OdpPlatform.EcScriptVerdicts
import OdpPlatform.EcScriptSuiteRuns
import OdpPlatform.EcScriptOperands
import OdpPlatform.EcScriptBuffers
import OdpPlatform.EcScriptGrammar
import OdpPlatform.EcScriptVerbs
import OdpPlatform.EcScriptRenderings
import OdpPlatform.UcsiSnapshot
import OdpPlatform.TuiBattery
import OdpPlatform.TuiSamples
import OdpPlatform.GrowingSets
import OdpPlatform.PatinaDispatch
import OdpPlatform.PatinaDispatchOrder
import OdpPlatform.PatinaDispatchFailures
import OdpPlatform.WordMemory
import OdpPlatform.PatinaAllocator
import OdpPlatform.PatinaAllocatorRuns
import OdpPlatform.AcpiPackageAccounting
import OdpPlatform.SreFmpProgress
import OdpPlatform.LongestPrefix
import OdpPlatform.SreStorageConnect
import OdpPlatform.InteractionEmbedding
import OdpPlatform.InteractionMonitor
import OdpPlatform.TuiMonitor
import OdpPlatform.SreLoaderServices
import OdpPlatform.SreRecoveryLoader
import OdpPlatform.SreLoaderBootOrder
import OdpPlatform.SreLoaderStaging
import OdpPlatform.BpRecoveryFlow
import OdpPlatform.BpRecoveryFlowRuns
import OdpPlatform.SreFmpGranted
import OdpPlatform.BpRecoveryUpdate
import OdpPlatform.NvmeBpWriteDeploy
import OdpPlatform.NvmeBpWriteGranted
