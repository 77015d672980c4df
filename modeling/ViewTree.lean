import ViewTree.Main
import ViewTree.Session
import ViewTree.Proofs.Markup.Reading
import ViewTree.Proofs.Rendering.Structure
import ViewTree.Proofs.Rendering.Shape
import ViewTree.Proofs.Rendering.Contents
import ViewTree.Proofs.Rendering.References
import ViewTree.Proofs.View.Version
import ViewTree.Proofs.View.Reloading
import ViewTree.Proofs.Rendering.Pruning
import ViewTree.Proofs.Rendering.Renumbering
import ViewTree.Proofs.Rendering.Exchange
import ViewTree.Proofs.Record
import ViewTree.Proofs.View.Grammar
import ViewTree.Proofs.View.Fields
import ViewTree.Proofs.Json.Grammar
import ViewTree.Proofs.Json.Tokens
import ViewTree.Proofs.Json.Taking
import ViewTree.Proofs.Json.Skipping
import ViewTree.Proofs.View.Agreement
import ViewTree.Proofs.View.Acceptance
import ViewTree.Proofs.View.Envelope
import ViewTree.Proofs.Json.Spelling
import ViewTree.Proofs.Rendering.Extension
import ViewTree.Proofs.Data.Storage
import ViewTree.Proofs.CommandLine.Delivery
import ViewTree.Proofs.Markup.Refusal
import ViewTree.Proofs.CommandLine.Failures
import ViewTree.Proofs.Rendering.Nesting
import ViewTree.Proofs.Number.Rounding
import ViewTree.Proofs.Number.Shortest
import ViewTree.Proofs.Number.Written
import ViewTree.Proofs.Number.Scaling
import ViewTree.Proofs.Data.Doubles
import ViewTree.Proofs.Rendering.Tidying
import ViewTree.Proofs.View.Refusal
import ViewTree.Proofs.Rendering.Sketching
import ViewTree.Proofs.Rendering.Concatenation
import ViewTree.Proofs.Rendering.Numbering
import ViewTree.Proofs.Rendering.Visits
import ViewTree.Proofs.Data.Integers
import ViewTree.Proofs.Json.Unambiguous
import ViewTree.Proofs.Node.Encoding
