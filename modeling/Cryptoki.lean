import Cryptoki.Attribute.Basic
import Cryptoki.Attribute.Equality
import Cryptoki.Attribute.Kind
import Cryptoki.Attribute.Registry
import Cryptoki.Attribute.Scalar
import Cryptoki.Attribute.Standard
import Cryptoki.Attribute.Text
import Cryptoki.Bytes
import Cryptoki.Code.Basic
import Cryptoki.Code.Enumerated
import Cryptoki.Code.Return
import Cryptoki.Date
import Cryptoki.Draft
import Cryptoki.Error
import Cryptoki.Journal
import Cryptoki.Mechanism.Basic
import Cryptoki.Mechanism.Block
import Cryptoki.Mechanism.Capability
import Cryptoki.Mechanism.Name
import Cryptoki.Mechanism.Parameters
import Cryptoki.Mechanism.Protocol
import Cryptoki.Mechanism.Text
import Cryptoki.Module.Argument
import Cryptoki.Module.Basic
import Cryptoki.Module.Forwarding
import Cryptoki.Module.Function
import Cryptoki.Module.FunctionTable
import Cryptoki.Module.Request
import Cryptoki.Operation
import Cryptoki.Pool
import Cryptoki.Proofs.Attribute.Bare
import Cryptoki.Proofs.Attribute.Normal
import Cryptoki.Proofs.Bytes
import Cryptoki.Proofs.Date
import Cryptoki.Proofs.Date.Digits
import Cryptoki.Proofs.Mechanism.Layout
import Cryptoki.Proofs.Mechanism.Outputs
import Cryptoki.Proofs.Mechanism.Pointers
import Cryptoki.Proofs.Module.Transparency
import Cryptoki.Proofs.Pool.Closing
import Cryptoki.Proofs.Pool.Conservation
import Cryptoki.Proofs.Pool.Lending
import Cryptoki.Proofs.Result
import Cryptoki.Proofs.Scalar
import Cryptoki.Proofs.Session.Action
import Cryptoki.Proofs.Session.Apart
import Cryptoki.Proofs.Session.Asking
import Cryptoki.Proofs.Session.Attributes
import Cryptoki.Proofs.Session.Calls
import Cryptoki.Proofs.Session.Ending
import Cryptoki.Proofs.Session.Frame
import Cryptoki.Proofs.Session.Ledger
import Cryptoki.Proofs.Session.Limits
import Cryptoki.Proofs.Session.Operation
import Cryptoki.Proofs.Session.Protocol
import Cryptoki.Proofs.Session.Reading
import Cryptoki.Proofs.Session.Twins
import Cryptoki.Proofs.Sorted
import Cryptoki.Proofs.Template.Built
import Cryptoki.Proofs.Template.History
import Cryptoki.Proofs.Template.Insert
import Cryptoki.Proofs.Token.Attributes
import Cryptoki.Proofs.Token.Bench
import Cryptoki.Proofs.Token.Entering
import Cryptoki.Proofs.Token.Frame
import Cryptoki.Proofs.Token.Interference
import Cryptoki.Proofs.Token.LockStep
import Cryptoki.Proofs.Token.Matching
import Cryptoki.Proofs.Token.Operations
import Cryptoki.Proofs.Token.SearchResults
import Cryptoki.Proofs.Token.Searches
import Cryptoki.Proofs.Token.Splitting
import Cryptoki.Proofs.Token.Undisturbed
import Cryptoki.Proofs.Token.Withheld
import Cryptoki.Proofs.Vendor.Definitions
import Cryptoki.Proofs.Wire.Agreement
import Cryptoki.Proofs.Wire.Allocating
import Cryptoki.Proofs.Wire.Answering
import Cryptoki.Proofs.Wire.Bookkeeping
import Cryptoki.Proofs.Wire.Collected
import Cryptoki.Proofs.Wire.Cut
import Cryptoki.Proofs.Wire.Decoding
import Cryptoki.Proofs.Wire.Exchanged
import Cryptoki.Proofs.Wire.Image
import Cryptoki.Proofs.Wire.Labels
import Cryptoki.Proofs.Wire.Masking
import Cryptoki.Proofs.Wire.Passes
import Cryptoki.Proofs.Wire.Reading
import Cryptoki.Proofs.Wire.Refusal
import Cryptoki.Proofs.Wire.RoundTrip
import Cryptoki.Proofs.Wire.Seen
import Cryptoki.Proofs.Wire.Store
import Cryptoki.Proofs.Wire.Stored
import Cryptoki.Recorder
import Cryptoki.Scenario.Basic
import Cryptoki.Scenario.Report
import Cryptoki.Scenario.Step
import Cryptoki.Session.Basic
import Cryptoki.Session.Call
import Cryptoki.Session.Calls
import Cryptoki.Sorted
import Cryptoki.Table
import Cryptoki.Template
import Cryptoki.Text.Number
import Cryptoki.Text.Printed
import Cryptoki.Text.Quoted
import Cryptoki.Token.Answer
import Cryptoki.Token.Basic
import Cryptoki.Token.Keys
import Cryptoki.Token.Object
import Cryptoki.Token.Operations
import Cryptoki.Token.Reading
import Cryptoki.Toml.Document
import Cryptoki.Toml.Key
import Cryptoki.Toml.Lexeme
import Cryptoki.Toml.Moment
import Cryptoki.Toml.Number
import Cryptoki.Toml.Quoted
import Cryptoki.Toml.Value
import Cryptoki.Vendor.Config
import Cryptoki.Vendor.Definitions
import Cryptoki.Vendor.NameMap
import Cryptoki.Vendor.Source
import Cryptoki.Vendor.Tree
import Cryptoki.Wire.Entry
import Cryptoki.Wire.Exchange
import Cryptoki.Wire.Store
import Cryptoki.Wire.Template
import Cryptoki.Proofs.Attribute.Codec
import Cryptoki.Proofs.Attribute.Equality
import Cryptoki.Proofs.Attribute.Names
import Cryptoki.Proofs.Attribute.Normalizing
