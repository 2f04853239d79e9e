import Registrar.Main
import Registrar.Text.Cursor
import Registrar.Text.Reader
import Registrar.Proofs.ClassFinality
import Registrar.Proofs.ScopeBalance
import Registrar.Proofs.SourceConcatenation
import Registrar.Proofs.Forest.RoundTrip
import Registrar.Proofs.BindingCounts
import Registrar.Proofs.SplitHeads
import Registrar.Proofs.WellFormedness
import Registrar.Proofs.SkippedHeaders
import Registrar.Proofs.NamespaceWrapping
import Registrar.Proofs.SourceInjectivity
import Registrar.Proofs.MarkerWords
import Registrar.Proofs.MarkerRemoval
import Registrar.Proofs.FileSystem.Following
import Registrar.Proofs.FileSystem.Writing
import Registrar.Proofs.WrittenOutput
import Registrar.Proofs.Paths
import Registrar.Proofs.FileSystem.Tree
import Registrar.Proofs.FileSystem.Walk
import Registrar.Proofs.ListedHeaders
import Registrar.Proofs.RepeatedRuns
import Registrar.Proofs.HeaderIncludes
import Registrar.Proofs.Indentation
import Registrar.Proofs.NamespaceLines
import Registrar.Proofs.WaitingMarkers
import Registrar.Proofs.Text.Lexing
import Registrar.Proofs.Text.Recleaning
import Registrar.Proofs.SlotLifetimes
import Registrar.Proofs.Initializers
import Registrar.Proofs.FirstInvocations
import Registrar.Proofs.Remarks
import Registrar.Proofs.MemberNames
import Registrar.Proofs.ByteOffsets
import Registrar.Proofs.LeadingInvocations
import Registrar.Proofs.Text.Readers
import Registrar.Proofs.IdentifierRuns
