import NodeCost.Document.Basic
import NodeCost.Document.Error
import NodeCost.Document.Read
import NodeCost.Document.Tag
import NodeCost.Enumerated
import NodeCost.Graph.Basic
import NodeCost.Graph.Call
import NodeCost.Json.Basic
import NodeCost.Json.Numeral
import NodeCost.Json.Shape
import NodeCost.Json.Skip
import NodeCost.Json.Text
import NodeCost.Json.Token
import NodeCost.Model.Amd64
import NodeCost.Model.Basic
import NodeCost.Model.Generic
import NodeCost.Model.Handle
import NodeCost.Model.Pricing
import NodeCost.Node
import NodeCost.Number.Shortest
import NodeCost.Number.Text
import NodeCost.Operator.Arithmetic
import NodeCost.Operator.Basic
import NodeCost.Operator.Category
import NodeCost.Operator.Effect
import NodeCost.Operator.Intrinsic
import NodeCost.Summary
import NodeCost.Target.Arch
import NodeCost.Target.Basic
import NodeCost.Target.Environment
import NodeCost.Target.Error
import NodeCost.Target.Feature
import NodeCost.Target.FeatureSet
import NodeCost.Target.Spelling
import NodeCost.Text.Blank
import NodeCost.Text.Extending
import NodeCost.Text.Fields
import NodeCost.Text.Ignorable
import NodeCost.Text.Printable
import NodeCost.Text.Quoted
import NodeCost.Text.Utf8
import NodeCost.Tier.Basic
import NodeCost.Tier.Cycles
import NodeCost.Tier.Size
import NodeCost.Proofs.Tier.Total
import NodeCost.Proofs.Text.Trim
import NodeCost.Proofs.Target.Validity
import NodeCost.Proofs.Target.Word
import NodeCost.Proofs.Target.Grammar
import NodeCost.Proofs.Target.RoundTrip
import NodeCost.Proofs.Model.Refinement
import NodeCost.Proofs.Graph.Builder
import NodeCost.Proofs.Model.Tally
import NodeCost.Proofs.Model.Additivity
import NodeCost.Proofs.Model.Agreement
import NodeCost.Proofs.Document.RoundTrip
import NodeCost.Proofs.Target.Membership
import NodeCost.Proofs.Model.Savings
import NodeCost.Proofs.Target.Refusal
import NodeCost.Proofs.Target.Listing
import NodeCost.Proofs.Target.Joining
import NodeCost.Proofs.Model.Hottest
import NodeCost.Proofs.Text.Utf8.Encoding
import NodeCost.Proofs.Text.Utf8.Segmentation
import NodeCost.Proofs.Target.Environment
import NodeCost.Proofs.Model.Accumulation
import NodeCost.Proofs.Operator.Dump
import NodeCost.Proofs.Graph.Dump
import NodeCost.Proofs.Target.Admission
import NodeCost.Proofs.Target.Canonical
import NodeCost.Proofs.Graph.Grounded
import NodeCost.Proofs.Model.Free
import NodeCost.Proofs.Model.Handle
import NodeCost.Proofs.Text.Variant
import NodeCost.Proofs.Document.Decoders
