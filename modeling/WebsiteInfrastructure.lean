import WebsiteInfrastructure.AccountAudit.Answers
import WebsiteInfrastructure.AccountAudit.Script
import WebsiteInfrastructure.AccountAudit.Soundness
import WebsiteInfrastructure.Assurance.Acceptance
import WebsiteInfrastructure.Assurance.Contract
import WebsiteInfrastructure.Assurance.Ledger
import WebsiteInfrastructure.Assurance.Manifest
import WebsiteInfrastructure.Assurance.Sanitized
import WebsiteInfrastructure.CniManifest.Documents
import WebsiteInfrastructure.CniManifest.Pinning
import WebsiteInfrastructure.CniManifest.Text
import WebsiteInfrastructure.CniManifest.Validator
import WebsiteInfrastructure.ConfigureHost.Recovery
import WebsiteInfrastructure.ConfigureHost.Script
import WebsiteInfrastructure.DestructiveFixture.Interruptions
import WebsiteInfrastructure.DestructiveFixture.Recovery
import WebsiteInfrastructure.DestructiveFixture.Transaction
import WebsiteInfrastructure.DestructiveLedger.Evidence
import WebsiteInfrastructure.DestructiveLedger.Exactness
import WebsiteInfrastructure.DestructiveLedger.Ledger
import WebsiteInfrastructure.DestructiveLedger.Stages
import WebsiteInfrastructure.EdgeProbe.Enforcement
import WebsiteInfrastructure.EdgeProbe.Evidence
import WebsiteInfrastructure.EdgeProbe.Parsers
import WebsiteInfrastructure.EdgeProbe.Probes
import WebsiteInfrastructure.EdgeProbe.Report
import WebsiteInfrastructure.EtcdSnapshot.Crashes
import WebsiteInfrastructure.EtcdSnapshot.Retention
import WebsiteInfrastructure.EtcdSnapshot.Script
import WebsiteInfrastructure.EtcdSnapshot.Visited
import WebsiteInfrastructure.FluxInstall.Cluster
import WebsiteInfrastructure.FluxInstall.Readings
import WebsiteInfrastructure.FluxInstall.Rollback
import WebsiteInfrastructure.FluxInstall.Script
import WebsiteInfrastructure.FluxInstall.Truth
import WebsiteInfrastructure.GuardTransaction.Finality
import WebsiteInfrastructure.GuardTransaction.Host
import WebsiteInfrastructure.GuardTransaction.Install
import WebsiteInfrastructure.GuardTransaction.InstallRecords
import WebsiteInfrastructure.GuardTransaction.Loader
import WebsiteInfrastructure.GuardTransaction.LoaderFrame
import WebsiteInfrastructure.GuardTransaction.LoaderRecords
import WebsiteInfrastructure.GuardTransaction.LoaderRuns
import WebsiteInfrastructure.GuardTransaction.LoaderSafety
import WebsiteInfrastructure.GuardTransaction.Publications
import WebsiteInfrastructure.GuardTransaction.Records
import WebsiteInfrastructure.GuardTransaction.Recover
import WebsiteInfrastructure.GuardTransaction.RecoverRecords
import WebsiteInfrastructure.GuardTransaction.Restoration
import WebsiteInfrastructure.GuardTransaction.Rollback
import WebsiteInfrastructure.GuardTransaction.System
import WebsiteInfrastructure.GuardTransaction.Tending
import WebsiteInfrastructure.GuardTransaction.Undoing
import WebsiteInfrastructure.History.Coverage
import WebsiteInfrastructure.History.Predicates
import WebsiteInfrastructure.History.Publishable
import WebsiteInfrastructure.History.Validation
import WebsiteInfrastructure.HostFingerprint.Drift
import WebsiteInfrastructure.HostFingerprint.Script
import WebsiteInfrastructure.HostPrerequisites.Applying
import WebsiteInfrastructure.HostPrerequisites.Coverage
import WebsiteInfrastructure.HostPrerequisites.Host
import WebsiteInfrastructure.HostPrerequisites.PlanText
import WebsiteInfrastructure.HostPrerequisites.Records
import WebsiteInfrastructure.HostPrerequisites.Recovery
import WebsiteInfrastructure.HostPrerequisites.Restoring
import WebsiteInfrastructure.HostPrerequisites.Scripts
import WebsiteInfrastructure.HostPrerequisites.Transaction
import WebsiteInfrastructure.IngressGuard.AdminIngress
import WebsiteInfrastructure.IngressGuard.Attestation
import WebsiteInfrastructure.IngressGuard.Exactness
import WebsiteInfrastructure.IngressGuard.ForeignRules
import WebsiteInfrastructure.IngressGuard.Meaning
import WebsiteInfrastructure.IngressGuard.Ruleset
import WebsiteInfrastructure.Inventory.Acceptance
import WebsiteInfrastructure.Inventory.Closure
import WebsiteInfrastructure.Inventory.Images
import WebsiteInfrastructure.Inventory.Objects
import WebsiteInfrastructure.Inventory.Validation
import WebsiteInfrastructure.KubeadmConfig.Accepted
import WebsiteInfrastructure.KubeadmConfig.Layout
import WebsiteInfrastructure.KubeadmConfig.Parser
import WebsiteInfrastructure.KubeadmConfig.Places
import WebsiteInfrastructure.KubeadmConfig.Rendering
import WebsiteInfrastructure.KubeadmConfig.Validator
import WebsiteInfrastructure.KubeconfigSnapshot.Canonical
import WebsiteInfrastructure.KubeconfigSnapshot.Credentials
import WebsiteInfrastructure.KubernetesInstall.Progress
import WebsiteInfrastructure.KubernetesInstall.Report
import WebsiteInfrastructure.KubernetesInstall.Rollback
import WebsiteInfrastructure.KubernetesInstall.Script
import WebsiteInfrastructure.Library.AwkFields
import WebsiteInfrastructure.Library.Base64
import WebsiteInfrastructure.Library.CommitGraph
import WebsiteInfrastructure.Library.CommitRange
import WebsiteInfrastructure.Library.CrashLogic
import WebsiteInfrastructure.Library.Dealing
import WebsiteInfrastructure.Library.Fields
import WebsiteInfrastructure.Library.Growth
import WebsiteInfrastructure.Library.ImageReference
import WebsiteInfrastructure.Library.IndentedMapping
import WebsiteInfrastructure.Library.Interference
import WebsiteInfrastructure.Library.Intervals
import WebsiteInfrastructure.Library.Ipv4
import WebsiteInfrastructure.Library.Jq
import WebsiteInfrastructure.Library.Json
import WebsiteInfrastructure.Library.JsonHooks
import WebsiteInfrastructure.Library.JsonReading
import WebsiteInfrastructure.Library.JsonSpelling
import WebsiteInfrastructure.Library.JsonText
import WebsiteInfrastructure.Library.JsonWriting
import WebsiteInfrastructure.Library.LineReaders
import WebsiteInfrastructure.Library.Nftables
import WebsiteInfrastructure.Library.NftablesText
import WebsiteInfrastructure.Library.PurePath
import WebsiteInfrastructure.Library.PythonObjects
import WebsiteInfrastructure.Library.PythonText
import WebsiteInfrastructure.Library.Raising
import WebsiteInfrastructure.Library.Ranking
import WebsiteInfrastructure.Library.Rbac
import WebsiteInfrastructure.Library.Regex
import WebsiteInfrastructure.Library.RegexMatches
import WebsiteInfrastructure.Library.RegexPieces
import WebsiteInfrastructure.Library.RegexSub
import WebsiteInfrastructure.Library.RegexTaking
import WebsiteInfrastructure.Library.Rego
import WebsiteInfrastructure.Library.Sed
import WebsiteInfrastructure.Library.Sha256
import WebsiteInfrastructure.Library.ShellLines
import WebsiteInfrastructure.Library.ShellText
import WebsiteInfrastructure.Library.Utf8
import WebsiteInfrastructure.PiNetwork.Agreement
import WebsiteInfrastructure.PiNetwork.Separation
import WebsiteInfrastructure.PiNetwork.Validator
import WebsiteInfrastructure.Policy.Connectors
import WebsiteInfrastructure.Policy.Documents
import WebsiteInfrastructure.Policy.Hardening
import WebsiteInfrastructure.Policy.RoleGrants
import WebsiteInfrastructure.Policy.Roles
import WebsiteInfrastructure.Policy.Storage
import WebsiteInfrastructure.Policy.Workloads
import WebsiteInfrastructure.PolicyFixtures.Certification
import WebsiteInfrastructure.PolicyFixtures.Runner
import WebsiteInfrastructure.ProtectedHost.Bindings
import WebsiteInfrastructure.ProtectedHost.Contract
import WebsiteInfrastructure.ProtectedHost.Identification
import WebsiteInfrastructure.ProtectedHost.LiveState
import WebsiteInfrastructure.ProtectedHost.MountInfo
import WebsiteInfrastructure.ProtectedHost.Mounts
import WebsiteInfrastructure.ProtectedHost.RuntimeEvidence
import WebsiteInfrastructure.RecoveryTools.Install
import WebsiteInfrastructure.RecoveryTools.Rollback
import WebsiteInfrastructure.RedactInventory.Addresses
import WebsiteInfrastructure.RedactInventory.KeyBlocks
import WebsiteInfrastructure.RedactInventory.Patterns
import WebsiteInfrastructure.RedactInventory.Quads
import WebsiteInfrastructure.Release.Epoch
import WebsiteInfrastructure.Release.EpochAdmission
import WebsiteInfrastructure.Release.Fragment
import WebsiteInfrastructure.Release.FragmentLines
import WebsiteInfrastructure.Release.Git
import WebsiteInfrastructure.Release.IdentityBytes
import WebsiteInfrastructure.Release.Interleaving
import WebsiteInfrastructure.Release.Ledger
import WebsiteInfrastructure.Release.LedgerLaw
import WebsiteInfrastructure.Release.OrderedPublication
import WebsiteInfrastructure.Release.PredecessorWait
import WebsiteInfrastructure.Release.Publication
import WebsiteInfrastructure.Release.Reading
import WebsiteInfrastructure.Release.Surface
import WebsiteInfrastructure.Release.Transition
import WebsiteInfrastructure.Release.Version
import WebsiteInfrastructure.Release.Window
import WebsiteInfrastructure.ReleaseState.CanonicalYaml
import WebsiteInfrastructure.ReleaseState.HelmRelease
import WebsiteInfrastructure.Repository.Egress
import WebsiteInfrastructure.Repository.Gates
import WebsiteInfrastructure.Repository.Tree
import WebsiteInfrastructure.ReservedStorage.Aliasing
import WebsiteInfrastructure.ReservedStorage.Extents
import WebsiteInfrastructure.ReservedStorage.Ledger
import WebsiteInfrastructure.ReservedStorage.Validator
import WebsiteInfrastructure.SecretDocuments.Completeness
import WebsiteInfrastructure.SecretDocuments.Detector
import WebsiteInfrastructure.SecretDocuments.Layouts
import WebsiteInfrastructure.TestRun.Census
import WebsiteInfrastructure.TestRun.Exactness
