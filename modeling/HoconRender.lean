import HoconRender.Exports
import HoconRender.Main
import HoconRender.Options.Arguments
import HoconRender.Options.Derivation
import HoconRender.Options.Raw
import HoconRender.Proofs.Json.Distinct
import HoconRender.Session
import HoconRender.Proofs.Json.Overlay
import HoconRender.Proofs.Settings.Fields
import HoconRender.Proofs.Loading.Reading
import HoconRender.Proofs.Loading.Layers
import HoconRender.Proofs.Loading.Precedence
import HoconRender.Proofs.Loading.Containment
import HoconRender.Proofs.Loading.Spellings
import HoconRender.Proofs.Session.Slot
import HoconRender.Proofs.Json.Documents
import HoconRender.Proofs.Text.Portable
import HoconRender.Proofs.Settings.Exported
import HoconRender.Proofs.Loading.ShownOptions
import HoconRender.Proofs.Loading.BareWorld
import HoconRender.Proofs.Loading.ExportedConfig
import HoconRender.Proofs.Options.LastWrite
import HoconRender.Proofs.CommandLine.Inspection
import HoconRender.Proofs.CommandLine.Descent
import HoconRender.Proofs.CommandLine.Occurrences
import HoconRender.Proofs.CommandLine.Overrides
import HoconRender.Proofs.CommandLine.Canonical
import HoconRender.Proofs.Loading.LetterCase
import HoconRender.Proofs.CommandLine.Toggles
import HoconRender.Proofs.CommandLine.Document
import HoconRender.Proofs.CommandLine.GivenPrefix
import HoconRender.Proofs.Files.Places
import HoconRender.Proofs.Loading.BrokenFiles
import HoconRender.Proofs.Loading.NamedFile
import HoconRender.Proofs.Loading.DirectBuild
import HoconRender.Proofs.Text.AsciiCapitals
import HoconRender.Proofs.Environment.Nested
import HoconRender.Proofs.Environment.Reordered
import HoconRender.Proofs.Loading.VariableOrder
import HoconRender.Proofs.Json.Paths
import HoconRender.Proofs.Json.Regrouping
import HoconRender.Proofs.Json.KeyOrder
import HoconRender.Proofs.Json.Compatible
import HoconRender.Proofs.Loading.Rearranged
import HoconRender.Proofs.Loading.Debugging
import HoconRender.Proofs.CommandLine.Verbosity
import HoconRender.Proofs.Options.Mappings
import HoconRender.Proofs.Options.Presentations
import HoconRender.Proofs.Options.EntryOrder
import HoconRender.Proofs.Options.Identity
import HoconRender.Proofs.Settings.Accepted
import HoconRender.Proofs.Settings.Verdicts
import HoconRender.Proofs.Settings.Agreement
import HoconRender.Proofs.Number.Canonical
import HoconRender.Proofs.Json.Keys
import HoconRender.Proofs.Json.Collected
import HoconRender.Proofs.ErrorContext
