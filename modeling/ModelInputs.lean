import ModelInputs.Command.Layout
import ModelInputs.Command.Line
import ModelInputs.Command.Report
import ModelInputs.Config.Basic
import ModelInputs.Config.Toml
import ModelInputs.Input.Check
import ModelInputs.Input.Option
import ModelInputs.Input.Options
import ModelInputs.Input.Text
import ModelInputs.Main
import ModelInputs.Model.Default
import ModelInputs.Model.HandleChange
import ModelInputs.Model.HandleInfo
import ModelInputs.Model.Queue
import ModelInputs.Model.StandardPalette
import ModelInputs.Number.Arithmetic
import ModelInputs.Proofs.Anchoring
import ModelInputs.Proofs.Chains
import ModelInputs.Proofs.Change.Reading
import ModelInputs.Proofs.Folding
import ModelInputs.Proofs.Integrity
import ModelInputs.Proofs.Keywords
import ModelInputs.Proofs.Killing
import ModelInputs.Proofs.Number.Canonical
import ModelInputs.Proofs.Number.Counting
import ModelInputs.Proofs.Number.Exact
import ModelInputs.Proofs.Number.Packing
import ModelInputs.Proofs.Number.Plain
import ModelInputs.Proofs.Number.Reading
import ModelInputs.Proofs.Number.Writing
import ModelInputs.Proofs.Parser.Positions
import ModelInputs.Proofs.Parsing
import ModelInputs.Proofs.Paths
import ModelInputs.Proofs.Printing
import ModelInputs.Proofs.Printing.Tokens
import ModelInputs.Proofs.Printing.Trees
import ModelInputs.Proofs.Quantities
import ModelInputs.Proofs.Reading.Colours
import ModelInputs.Proofs.Reading.Lists
import ModelInputs.Proofs.Reading.Numbers
import ModelInputs.Proofs.Reading.Warnings
import ModelInputs.Proofs.Record.Groups
import ModelInputs.Proofs.Record.Items
import ModelInputs.Proofs.Record.Matching
import ModelInputs.Proofs.Record.TopLevel
import ModelInputs.Proofs.Record.Words
import ModelInputs.Proofs.Records
import ModelInputs.Proofs.Record.Writing
import ModelInputs.Proofs.Reference.Denoting
import ModelInputs.Proofs.Reference.Dropping
import ModelInputs.Proofs.Reference.Held
import ModelInputs.Proofs.Reference.Names
import ModelInputs.Proofs.Reference.Registered
import ModelInputs.Proofs.Registration
import ModelInputs.Proofs.Relative.Loosening
import ModelInputs.Proofs.Relative.Walk
import ModelInputs.Proofs.Relatives
import ModelInputs.Proofs.Repeat.Definitions
import ModelInputs.Proofs.Repeat.Settled
import ModelInputs.Proofs.Repeat.Values
import ModelInputs.Proofs.Repeating
import ModelInputs.Proofs.Run.Current
import ModelInputs.Proofs.Run.Killing
import ModelInputs.Proofs.Run.Searching
import ModelInputs.Proofs.Run.Tokens
import ModelInputs.Proofs.Run.WellFormed
import ModelInputs.Proofs.Runs
import ModelInputs.Proofs.Texts
import ModelInputs.Proofs.Unit.Chains
import ModelInputs.Proofs.Units
import ModelInputs.Proofs.Validation
import ModelInputs.Proofs.Value.Accepted
import ModelInputs.Proofs.Value.Within
import ModelInputs.Value.Same
import ModelInputs.Proofs.Run.Outputs
import ModelInputs.Proofs.OutputNames
import ModelInputs.Proofs.Reading.Asking
import ModelInputs.Proofs.Reading.Nesting
import ModelInputs.Proofs.Run.Tables
import ModelInputs.Proofs.SelfReference
import ModelInputs.Proofs.Transparency
import ModelInputs.Proofs.Grouping
import ModelInputs.Proofs.Record.Capitals
import ModelInputs.Proofs.Strings
import ModelInputs.Proofs.Reading.Entities
import ModelInputs.Proofs.Reading.Shown
import ModelInputs.Proofs.Run.Assigning
import ModelInputs.Proofs.Living
import ModelInputs.Proofs.Reference.KeyTexts
import ModelInputs.Proofs.KeyLists
import ModelInputs.Proofs.Checked
import ModelInputs.Proofs.DimensionalAnalysis
import ModelInputs.Proofs.Folded
import ModelInputs.Proofs.Parser.Folded
import ModelInputs.Proofs.Undefined
import ModelInputs.Proofs.Run.Declaring
import ModelInputs.Proofs.DefinitionLists
import ModelInputs.Proofs.Record.Matching
import ModelInputs.Proofs.Record.TopLevel
import ModelInputs.Proofs.Printing.Lossless
import ModelInputs.Proofs.Printing.Results
import ModelInputs.Proofs.KeyAdditions
import ModelInputs.Proofs.Providers
import ModelInputs.Proofs.GroupNames
import ModelInputs.Proofs.Reading.Relabelled
import ModelInputs.Proofs.Resetting
import ModelInputs.Proofs.Notations
import ModelInputs.Proofs.Quoting
import ModelInputs.Proofs.ReadableNames
import ModelInputs.Proofs.Caching
import ModelInputs.Proofs.Options
import ModelInputs.Proofs.Selection
import ModelInputs.Proofs.Evaluated
import ModelInputs.Proofs.Logic
