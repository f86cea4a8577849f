import Registrar.Catalogue
import Registrar.Classification
import Registrar.CommandLine.Arguments
import Registrar.CommandLine.Run
import Registrar.Documentation.Compound
import Registrar.Documentation.Directory
import Registrar.Documentation.Doxyfile
import Registrar.Documentation.Tag
import Registrar.Emission
import Registrar.FileSystem.Basic
import Registrar.FileSystem.Change
import Registrar.FileSystem.Node
import Registrar.Json.Basic
import Registrar.Json.Reader
import Registrar.Json.Token
import Registrar.Linking
import Registrar.Log
import Registrar.Main
import Registrar.Model.Basic
import Registrar.Model.Declaration
import Registrar.Model.Name
import Registrar.Model.Role
import Registrar.Model.Role.Json
import Registrar.Path.Basic
import Registrar.Path.Relative
import Registrar.Plan
import Registrar.Proofs.Classification.Chain
import Registrar.Proofs.Classification.Fixed
import Registrar.Proofs.Classification.Instance
import Registrar.Proofs.Classification.Roles
import Registrar.Proofs.Classification.Run
import Registrar.Proofs.Classification.Search
import Registrar.Proofs.Documentation.Alias
import Registrar.Proofs.Documentation.Directory
import Registrar.Proofs.Documentation.Edit
import Registrar.Proofs.Documentation.Format
import Registrar.Proofs.Documentation.Fresh
import Registrar.Proofs.Documentation.Lookup
import Registrar.Proofs.Documentation.Marker
import Registrar.Proofs.Documentation.Paragraph
import Registrar.Proofs.Documentation.RoundTrip
import Registrar.Proofs.Documentation.WellFormed
import Registrar.Proofs.Emission.Block
import Registrar.Proofs.Emission.Failure
import Registrar.Proofs.Emission.File
import Registrar.Proofs.Emission.Include
import Registrar.Proofs.Emission.Planned
import Registrar.Proofs.Emission.Reading
import Registrar.Proofs.Emission.Registration
import Registrar.Proofs.Emission.Section
import Registrar.Proofs.Emission.Serialization
import Registrar.Proofs.Emission.Statement
import Registrar.Proofs.FileSystem.Directory
import Registrar.Proofs.FileSystem.Listing
import Registrar.Proofs.FileSystem.Obstacle
import Registrar.Proofs.FileSystem.Opening
import Registrar.Proofs.FileSystem.Passage
import Registrar.Proofs.FileSystem.Proper
import Registrar.Proofs.FileSystem.Replacement
import Registrar.Proofs.FileSystem.Resolution
import Registrar.Proofs.FileSystem.Spelling
import Registrar.Proofs.FileSystem.Tree
import Registrar.Proofs.FileSystem.Way
import Registrar.Proofs.Linking.Base
import Registrar.Proofs.Linking.Effect
import Registrar.Proofs.Linking.Fixed
import Registrar.Proofs.Linking.Nesting
import Registrar.Proofs.Linking.Reference
import Registrar.Proofs.Linking.Template
import Registrar.Proofs.Linking.Writing
import Registrar.Proofs.Model.Catalogue
import Registrar.Proofs.Model.Lookup
import Registrar.Proofs.Model.Name
import Registrar.Proofs.Order.Generation
import Registrar.Proofs.Order.Plan
import Registrar.Proofs.Order.Renumbering
import Registrar.Proofs.Path.Absolute
import Registrar.Proofs.Path.Lexical
import Registrar.Proofs.Path.Pieces
import Registrar.Proofs.Path.Segments
import Registrar.Proofs.Path.Spelling
import Registrar.Proofs.Plan.Partition
import Registrar.Proofs.Run.Currency
import Registrar.Proofs.Run.Prebuilt
import Registrar.Proofs.Run.Protection
import Registrar.Proofs.Run.Stages
import Registrar.Proofs.Run.Staleness
import Registrar.Proofs.Run.Step
import Registrar.Proofs.Run.Timing
import Registrar.Proofs.Settings.Override
import Registrar.Proofs.Settings.Record
import Registrar.Proofs.Template.Builtin
import Registrar.Proofs.Template.Fragment
import Registrar.Proofs.Template.Missing
import Registrar.Proofs.Template.Reading
import Registrar.Proofs.Text.BlankLine
import Registrar.Proofs.Text.ByteOrder
import Registrar.Proofs.Text.Lines
import Registrar.Proofs.Text.Pattern
import Registrar.Proofs.Text.Search
import Registrar.Proofs.Text.Split
import Registrar.Run.Error
import Registrar.Run.Generator
import Registrar.Run.Producer
import Registrar.Run.Report
import Registrar.Run.Staleness
import Registrar.Script.Arithmetic
import Registrar.Script.Builtin
import Registrar.Script.ExitStatus
import Registrar.Script.Expansion
import Registrar.Script.Field
import Registrar.Script.Interpreter
import Registrar.Script.Launch
import Registrar.Script.Machine
import Registrar.Script.Process
import Registrar.Script.Program
import Registrar.Script.Reader
import Registrar.Script.Redirection
import Registrar.Script.Regular
import Registrar.Script.Run
import Registrar.Script.Syntax
import Registrar.Script.Utility
import Registrar.Script.Utility.CharacterSet
import Registrar.Script.Utility.Condition
import Registrar.Script.Utility.Directory
import Registrar.Script.Utility.Edit
import Registrar.Script.Utility.Effect
import Registrar.Script.Utility.File
import Registrar.Script.Utility.Name
import Registrar.Script.Utility.Print
import Registrar.Script.Utility.Search
import Registrar.Script.Utility.Text
import Registrar.Script.Wildcard
import Registrar.Settings.Basic
import Registrar.Settings.File
import Registrar.Settings.Json
import Registrar.Template.Basic
import Registrar.Template.Builtin
import Registrar.Template.Directory
import Registrar.Template.Set
import Registrar.Text.Blank
import Registrar.Text.Lines
import Registrar.Text.Pattern
import Registrar.Text.Search
import Registrar.Xml.Character
import Registrar.Xml.Event
import Registrar.Xml.Node
import Registrar.Xml.Reference
import Registrar.Xml.Tree
