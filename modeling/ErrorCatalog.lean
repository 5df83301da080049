import ErrorCatalog.Main
import ErrorCatalog.Scan.Operation
import ErrorCatalog.Proofs.Scan.Language
import ErrorCatalog.Proofs.Scan.Concatenation
import ErrorCatalog.Proofs.Scan.Completion
import ErrorCatalog.Proofs.Scan.Failure
import ErrorCatalog.Proofs.Position
import ErrorCatalog.Proofs.Scan.Session
import ErrorCatalog.Proofs.Interface.Erasure
import ErrorCatalog.Proofs.Interface.Containment
import ErrorCatalog.Proofs.Scan.WellFormed
import ErrorCatalog.Proofs.Scan.Spelling
import ErrorCatalog.Proofs.Scan.LineEnding
import ErrorCatalog.Proofs.Scan.SingleField
import ErrorCatalog.Proofs.Scan.Termination
import ErrorCatalog.Proofs.CommandLine.Priority
import ErrorCatalog.Proofs.Scan.Closing
import ErrorCatalog.Proofs.CommandLine.Joining
import ErrorCatalog.Proofs.Catalog.Dump
import ErrorCatalog.Proofs.Scan.Residue
import ErrorCatalog.Proofs.Scan.Completed
import ErrorCatalog.Proofs.Scan.Shortening
import ErrorCatalog.Proofs.Interface.Agreement
import ErrorCatalog.Proofs.Interface.Sections
import ErrorCatalog.Proofs.Interface.Documentation
import ErrorCatalog.Proofs.Interface.Fallback
import ErrorCatalog.Proofs.CommandLine.Mapping
import ErrorCatalog.Proofs.Scan.DocComment
import ErrorCatalog.Proofs.Window
import ErrorCatalog.Proofs.Files.Saving
import ErrorCatalog.Proofs.CommandLine.Adding
import ErrorCatalog.Proofs.CommandLine.Reporting
