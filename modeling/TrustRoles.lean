import TrustRoles.Main
import TrustRoles.Session
import TrustRoles.Proofs.Consultation
import TrustRoles.Proofs.Choice
import TrustRoles.Proofs.Memo
import TrustRoles.Proofs.Session.Effect
import TrustRoles.Proofs.Session.History
import TrustRoles.Proofs.Session.Provenance
import TrustRoles.Proofs.Session.Stability
import TrustRoles.Proofs.Files.OnDisk
import TrustRoles.Proofs.Files.Snapshot
import TrustRoles.Proofs.Course
import TrustRoles.Proofs.Text.Utf8
import TrustRoles.Proofs.Files.Name
import TrustRoles.Proofs.Files.Expansion
import TrustRoles.Proofs.Files.FirstAnswer
import TrustRoles.Proofs.Encoding.Base64
import TrustRoles.Proofs.Encoding.Pem
import TrustRoles.Proofs.Der.Reader
import TrustRoles.Proofs.Certificate.Fields
import TrustRoles.Proofs.Certificate.Bundle
import TrustRoles.Proofs.Inspection.Contents
import TrustRoles.Proofs.Inspection.Reply
import TrustRoles.Proofs.Inspection.History
import TrustRoles.Proofs.Session.Slots
import TrustRoles.Proofs.Session.Accounting
import TrustRoles.Proofs.Rearrangement
import TrustRoles.Proofs.Toml.Quoted
import TrustRoles.Proofs.Toml.Document
import TrustRoles.Proofs.Files.Written
import TrustRoles.Proofs.Settings.Document
import TrustRoles.Proofs.Settings.Kept
import TrustRoles.Proofs.Persistence
import TrustRoles.Proofs.Text.Lines
import TrustRoles.Proofs.Certificate.Plain
import TrustRoles.Proofs.Report.Lines
import TrustRoles.Proofs.Files.Growth
import TrustRoles.Proofs.Files.Parent
import TrustRoles.Proofs.Settings.Saved
import TrustRoles.Proofs.CommandLine.Footprint
import TrustRoles.Proofs.Json.Grammar
import TrustRoles.Proofs.Json.Reader
import TrustRoles.Proofs.Report.Readback
import TrustRoles.Proofs.Interruption
import TrustRoles.Proofs.Inspection.Retry
import TrustRoles.Proofs.Inspection.Residue
import TrustRoles.Proofs.Certificate.Surroundings
import TrustRoles.Proofs.CommandLine.Request
import TrustRoles.Proofs.Journal
import TrustRoles.Proofs.Settings.Loaders
import TrustRoles.Proofs.KeyUsage
import TrustRoles.Proofs.Selection
