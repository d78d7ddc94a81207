import LinkedJson.CommandLine.Run
import LinkedJson.CommandLine.Usage
import LinkedJson.Export
import LinkedJson.Main
import LinkedJson.Processor.Script
import LinkedJson.Proofs.Context.StoreOrder
import LinkedJson.Proofs.Context.Expansion
import LinkedJson.Proofs.Document.Failures
import LinkedJson.Proofs.Document.Settings
import LinkedJson.Proofs.Document.Unused
import LinkedJson.Proofs.Rdf.Grouping
import LinkedJson.Proofs.Document.OneGraph
import LinkedJson.Proofs.Rdf.GraphKeys
import LinkedJson.Proofs.Rdf.Repeats
import LinkedJson.Proofs.Document.Delivery
import LinkedJson.Proofs.CommandLine.Endings
import LinkedJson.Proofs.CommandLine.Output
import LinkedJson.Proofs.CommandLine.Overrides
import LinkedJson.Proofs.Settings.Texts
import LinkedJson.Proofs.CommandLine.Contexts
import LinkedJson.Proofs.Context.Least
import LinkedJson.Proofs.Context.Reserved
import LinkedJson.Proofs.Context.Kinds
import LinkedJson.Proofs.Document.Coercions
import LinkedJson.Proofs.Context.PrefixedKeys
import LinkedJson.Proofs.Rdf.Format
import LinkedJson.Proofs.Variant
import LinkedJson.Proofs.Rdf.TermDocument
import LinkedJson.Proofs.Iri.LocalNames
