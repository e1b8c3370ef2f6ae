import BranchingDialogue.Arena
import BranchingDialogue.CheckTool
import BranchingDialogue.Display
import BranchingDialogue.Failure
import BranchingDialogue.Files.Folder
import BranchingDialogue.Files.Path
import BranchingDialogue.Json.Basic
import BranchingDialogue.Json.Parse
import BranchingDialogue.Json.Print
import BranchingDialogue.Library
import BranchingDialogue.Main
import BranchingDialogue.Markup.Address
import BranchingDialogue.Markup.Emphasis
import BranchingDialogue.Markup.Html
import BranchingDialogue.Markup.Inline
import BranchingDialogue.Markup.Link
import BranchingDialogue.Markup.Span
import BranchingDialogue.Notice
import BranchingDialogue.Number.Basic
import BranchingDialogue.Number.Numeral
import BranchingDialogue.Number.Shortest
import BranchingDialogue.Playthrough
import BranchingDialogue.Proofs.Cutting
import BranchingDialogue.Proofs.Spelling
import BranchingDialogue.Report
import BranchingDialogue.Rules.Check
import BranchingDialogue.Rules.Objection
import BranchingDialogue.Rules.Policy
import BranchingDialogue.Script
import BranchingDialogue.Script.Document
import BranchingDialogue.Script.Line
import BranchingDialogue.Script.Outline
import BranchingDialogue.Script.Vocabulary
import BranchingDialogue.Service
import BranchingDialogue.Service.Body
import BranchingDialogue.Service.Charset
import BranchingDialogue.Service.MediaType
import BranchingDialogue.Service.Message
import BranchingDialogue.Service.Reply
import BranchingDialogue.Service.Route
import BranchingDialogue.Service.Target
import BranchingDialogue.Session
import BranchingDialogue.Settings
import BranchingDialogue.Settings.File
import BranchingDialogue.Store
import BranchingDialogue.Story
import BranchingDialogue.Table
import BranchingDialogue.Text.Blank
import BranchingDialogue.Text.Category
import BranchingDialogue.Text.Lines
import BranchingDialogue.Text.Mark
import BranchingDialogue.Text.Percent
import BranchingDialogue.Text.Quoted
import BranchingDialogue.Text.Units
import BranchingDialogue.Text.Utf16
import BranchingDialogue.Text.Utf7
import BranchingDialogue.Text.Utf8
import BranchingDialogue.Uid
import BranchingDialogue.Uid.Generator
import BranchingDialogue.Proofs.Nesting
import BranchingDialogue.Proofs.Reading
import BranchingDialogue.Proofs.RoundTrip
import BranchingDialogue.Proofs.Grammar
import BranchingDialogue.Proofs.Forest
import BranchingDialogue.Proofs.Layout
import BranchingDialogue.Proofs.Course
import BranchingDialogue.Proofs.Driving
import BranchingDialogue.Proofs.Flattening
import BranchingDialogue.Proofs.Calls
import BranchingDialogue.Proofs.Sites
import BranchingDialogue.Proofs.Standing
import BranchingDialogue.Proofs.Advance
import BranchingDialogue.Proofs.Approval
import BranchingDialogue.Proofs.Following
import BranchingDialogue.Proofs.Ancestry
import BranchingDialogue.Proofs.Alternatives
import BranchingDialogue.Proofs.Elements
import BranchingDialogue.Proofs.Objections
import BranchingDialogue.Proofs.Rulebook
import BranchingDialogue.Proofs.Agreement
import BranchingDialogue.Proofs.Bodies
import BranchingDialogue.Proofs.Remarks
import BranchingDialogue.Proofs.Jumps
import BranchingDialogue.Proofs.Straight
import BranchingDialogue.Proofs.Orders
import BranchingDialogue.Proofs.Separation
import BranchingDialogue.Proofs.Clocks
import BranchingDialogue.Proofs.Atomicity
import BranchingDialogue.Proofs.Loading
import BranchingDialogue.Proofs.Requests
import BranchingDialogue.Proofs.Encoding
import BranchingDialogue.Proofs.Places
import BranchingDialogue.Proofs.Fixing
import BranchingDialogue.Proofs.Comments
import BranchingDialogue.Proofs.Leniency
import BranchingDialogue.Proofs.Signposts
import BranchingDialogue.Proofs.Tags
import BranchingDialogue.Proofs.Refusals
import BranchingDialogue.Proofs.Rounding
import BranchingDialogue.Proofs.Chronology
import BranchingDialogue.Proofs.Collation
import BranchingDialogue.Proofs.Isolation
import BranchingDialogue.Proofs.Growth
import BranchingDialogue.Proofs.Preorder
import BranchingDialogue.Proofs.Resuming
