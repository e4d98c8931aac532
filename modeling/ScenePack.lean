import ScenePack.Word
import ScenePack.Bytes
import ScenePack.Numeric.BinaryFloat
import ScenePack.Numeric.Shortest
import ScenePack.Numeric.DecimalText
import ScenePack.Json.Basic
import ScenePack.Json.Lexeme
import ScenePack.Json.Reader
import ScenePack.Json.Shape
import ScenePack.Text.Hex
import ScenePack.Digest.Blake3
import ScenePack.Schema.Kind
import ScenePack.Schema.Basic
import ScenePack.Schema.Source
import ScenePack.Schema.Embedding
import ScenePack.Schema.Plan
import ScenePack.Layout.Basic
import ScenePack.Layout.Place
import ScenePack.Layout.Registry
import ScenePack.Layout.Fingerprint
import ScenePack.Bindings.Names
import ScenePack.Scene.Value
import ScenePack.Scene.Error
import ScenePack.Scene.Basic
import ScenePack.Scene.Source
import ScenePack.Text.Utf8
import ScenePack.Image.Format
import ScenePack.Scene.Check
import ScenePack.Image.Arrangement
import ScenePack.Image.Pack
import ScenePack.Image.Encode
import ScenePack.Image.Error
import ScenePack.Image.Span
import ScenePack.Image.Scan
import ScenePack.Image.Relocate
import ScenePack.Image.View
import ScenePack.Image.Buffer
import ScenePack.Text.Unprinted
import ScenePack.Text.Quoted
import ScenePack.Image.Inspect
import ScenePack.Bindings.Fixup
import ScenePack.Bindings.Basic
import ScenePack.Bindings.Text
import ScenePack.Proofs.Outcome
import ScenePack.Proofs.Schema.Depth
import ScenePack.Proofs.Schema.Longest
import ScenePack.Proofs.Schema.Traversal
import ScenePack.Proofs.Layout.Sound
import ScenePack.Proofs.Agreement
import ScenePack.Proofs.Image.Spans
import ScenePack.Proofs.Image.Accepted
import ScenePack.Proofs.Image.Patch
import ScenePack.Proofs.Image.Words
import ScenePack.Proofs.Image.Stored
import ScenePack.Proofs.Image.Reading
import ScenePack.Proofs.Image.Relocation
import ScenePack.Proofs.Image.Contents
import ScenePack.Proofs.Image.Rebased
import ScenePack.Proofs.Image.Transparency
import ScenePack.Proofs.Scene.Formed
import ScenePack.Proofs.Scene.Order
import ScenePack.Proofs.Scene.Rearranged
import ScenePack.Proofs.Image.Written
import ScenePack.Proofs.Image.Arranged
import ScenePack.Proofs.Image.Packed
import ScenePack.Proofs.Image.RoundTrip
import ScenePack.Proofs.Layout.Parts
import ScenePack.Proofs.Layout.Faithful
import ScenePack.Proofs.Image.WellFormed
import ScenePack.Proofs.Image.Lifetime
import ScenePack.Proofs.Layout.Construction
import ScenePack.Proofs.Layout.Determined
import ScenePack.Proofs.Layout.SourceOrder
import ScenePack.Proofs.Scene.Zero
import ScenePack.Proofs.Layout.Identity
import ScenePack.Proofs.Bindings.Lines
import ScenePack.Proofs.Bindings.Run
import ScenePack.Proofs.Bindings.FixupText
import ScenePack.Proofs.Bindings.StructLayout
import ScenePack.Proofs.Image.Canonical
import ScenePack.Proofs.Scene.Producers
import ScenePack.Proofs.Scene.Workspace
import ScenePack.Proofs.Scene.Complete
import ScenePack.Proofs.Image.Interned
import ScenePack.Proofs.Image.Completed
import ScenePack.Proofs.Image.Total
import ScenePack.Proofs.Image.Repacked
import ScenePack.Proofs.Image.Sized
import ScenePack.Proofs.Image.Filled
import ScenePack.Proofs.Image.Encoded
import ScenePack.Proofs.Image.Counted
import ScenePack.Proofs.Scene.Parsed
import ScenePack.Proofs.Image.Extended
import ScenePack.Proofs.Image.Outlined
import ScenePack.Proofs.Image.Composed
import ScenePack.Proofs.Image.Truncated
import ScenePack.Proofs.Image.Guarded
import ScenePack.Proofs.Image.GuardedView
import ScenePack.Proofs.Image.Addresses
import ScenePack.Proofs.Image.Repeated
import ScenePack.Proofs.Scene.Foreign
import ScenePack.Proofs.Image.Enumerated
import ScenePack.Proofs.Layout.Shared
import ScenePack.Proofs.Json.Distinct
import ScenePack.Proofs.Scene.Meant
import ScenePack.Proofs.Image.Overlap
import ScenePack.Proofs.Bindings.Identity
import ScenePack.Proofs.Bindings.Mentions
