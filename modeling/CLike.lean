import CLike.Lexeme.Scan
import CLike.Scope
import CLike.Node.Alike
import CLike.Node.Dump
import CLike.Session
import CLike.CommandLine.Folder
import CLike.Main
import CLike.Proofs.Segmentation
import CLike.Proofs.StatementLanguage
import CLike.Proofs.Spelling
import CLike.Proofs.SourceText
import CLike.Proofs.History
import CLike.Proofs.Readings
import CLike.Proofs.ScanSteps
import CLike.Proofs.Spans
import CLike.Proofs.ParsedTrees
import CLike.Proofs.DumpReading
import CLike.Proofs.SameKinds
import CLike.Proofs.InertCharacters
import CLike.Proofs.LineEnds
import CLike.Proofs.Nesting
import CLike.Proofs.CommaLists
import CLike.Proofs.LineSeams
import CLike.Proofs.PhraseLanguage
import CLike.Proofs.Bounds
import CLike.Proofs.FaultPlaces
import CLike.Proofs.GuardedDescent
import CLike.Proofs.SafeDescent
import CLike.Proofs.KeptTokens
import CLike.Proofs.LeftLeaning
import CLike.Proofs.EarliestFaults
import CLike.Proofs.StatementSight
import CLike.Proofs.AssignmentTargets
import CLike.Proofs.ParameterWalk
import CLike.Proofs.ScopeEnds
import CLike.Proofs.CommentText
import CLike.Proofs.Refusals
import CLike.Proofs.LeadingNumbers
import CLike.Proofs.Rereading
import CLike.Proofs.RecognizerOrders
import CLike.Proofs.DumpScopes
import CLike.Proofs.CommandRuns
import CLike.Proofs.ListingReading
