import MethodLint.Main
import MethodLint.Registry
import MethodLint.Source.Document
import MethodLint.Tree.Linked
import MethodLint.Proofs.Flags
import MethodLint.Proofs.Findings
import MethodLint.Proofs.DecisionPoints
import MethodLint.Proofs.OutlineFunctions
import MethodLint.Proofs.OutlineMetrics
import MethodLint.Proofs.OutlineVariables
import MethodLint.Proofs.AlikeOutlines
import MethodLint.Proofs.ComprehensionLoops
import MethodLint.Proofs.FrontEndTrees
import MethodLint.Proofs.ScanIsolation
import MethodLint.Proofs.PoolRuns
import MethodLint.Proofs.Documents
import MethodLint.Proofs.NormalDocuments
import MethodLint.Proofs.LinkedTrees
import MethodLint.Proofs.LinkedWalks
import MethodLint.Proofs.Forests
import MethodLint.Proofs.AncestorWalks
import MethodLint.Proofs.NestingDepth
import MethodLint.Proofs.EnclosingMethods
import MethodLint.Proofs.InertNodes
import MethodLint.Proofs.SiblingOrder
import MethodLint.Proofs.RaisedThresholds
import MethodLint.Proofs.AcceptedDocuments
import MethodLint.Proofs.RoundTrips
import MethodLint.Proofs.DumpedOutlines
import MethodLint.Proofs.RegistryRuns
import MethodLint.Proofs.Exclusions
import MethodLint.Proofs.FileSelection
import MethodLint.Proofs.ScanReports
import MethodLint.Proofs.TreeDumps
import MethodLint.Proofs.ConfigSafety
import MethodLint.Proofs.WrappedDocuments
import MethodLint.Proofs.FlagValues
import MethodLint.Proofs.OuterNames
import MethodLint.Proofs.EffectiveConfig
import MethodLint.Proofs.ExtensionKeys
import MethodLint.Proofs.ScopeDiscipline
import MethodLint.Proofs.PreorderWalks
import MethodLint.Proofs.ScanCommands
