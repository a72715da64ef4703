import SoloBuild.Main
import SoloBuild.Proofs.BlockSearch
import SoloBuild.Proofs.CallSteps
import SoloBuild.Proofs.CancelledStartup
import SoloBuild.Proofs.ComposeCorrect
import SoloBuild.Proofs.DeclarationReading
import SoloBuild.Proofs.DeferredFollowUp
import SoloBuild.Proofs.FieldPieces
import SoloBuild.Proofs.FieldReading
import SoloBuild.Proofs.FollowUps
import SoloBuild.Proofs.HeaderSearch
import SoloBuild.Proofs.HostCalls
import SoloBuild.Proofs.InterceptGate
import SoloBuild.Proofs.Interleaving
import SoloBuild.Proofs.LocateAppend
import SoloBuild.Proofs.LocateCorrect
import SoloBuild.Proofs.PlainDeclaration
import SoloBuild.Proofs.ProcessTable
import SoloBuild.Proofs.RegionReading
import SoloBuild.Proofs.RewriteBalance
import SoloBuild.Proofs.RewriteFields
import SoloBuild.Proofs.RewriteLines
import SoloBuild.Proofs.SingleFlight
import SoloBuild.Proofs.TextPieces
import SoloBuild.Proofs.History
import SoloBuild.Proofs.LifecycleTrace
import SoloBuild.Proofs.HostNotices
import SoloBuild.Proofs.ByteRegions
import SoloBuild.Proofs.Resolution
import SoloBuild.Proofs.PurgeConfined
import SoloBuild.Proofs.PrepareStages
import SoloBuild.Proofs.PrepareFrame
import SoloBuild.Proofs.PurgeReading
import SoloBuild.Proofs.PurgeIndependence
import SoloBuild.Proofs.PurgeAgreement
import SoloBuild.Proofs.KillRequests
import SoloBuild.Proofs.KillLedger
import SoloBuild.Proofs.KillBarrier
import SoloBuild.Proofs.DebugOutcome
import SoloBuild.Proofs.WrittenFiles
import SoloBuild.Proofs.LiveConfig
import SoloBuild.Proofs.RequestOutcomes
import SoloBuild.Proofs.ChannelFrame
import SoloBuild.Proofs.QuietEvents
import SoloBuild.Proofs.InterceptOutcome
import SoloBuild.Proofs.DecodedLines
import SoloBuild.Proofs.OutputForwarding
import SoloBuild.Proofs.BraceCounts
import SoloBuild.Proofs.LocatedNode
import SoloBuild.Proofs.SynthesizedFile
import SoloBuild.Proofs.DebugCommand
import SoloBuild.Proofs.NameLiteral
import SoloBuild.Proofs.OwnBlock
import SoloBuild.Proofs.InlineFields
import SoloBuild.Proofs.OneLineDeclaration
import SoloBuild.Proofs.SurvivingReferences
import SoloBuild.Proofs.LineEndings
import SoloBuild.Proofs.QuotedLiteral
import SoloBuild.Proofs.ComposedLines
import SoloBuild.Proofs.MovedFields
import SoloBuild.Proofs.SpacedWords
import SoloBuild.Proofs.LauncherCall
import SoloBuild.Proofs.LauncherScript
import SoloBuild.Proofs.SelectionAccount
import SoloBuild.Proofs.OwningProject
import SoloBuild.Proofs.RequeuedFollowUps
import SoloBuild.Proofs.IncludeDirectives
