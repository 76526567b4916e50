import TypePages.Comment.Basic
import TypePages.Comment.Donor
import TypePages.Comment.Overlay
import TypePages.Comment.Reader
import TypePages.Comment.Sentence
import TypePages.Config.Basic
import TypePages.Config.Merge
import TypePages.Element.Access
import TypePages.Element.Basic
import TypePages.Element.Kind
import TypePages.Element.Order
import TypePages.Element.Reader
import TypePages.Fault
import TypePages.Link.Anchor
import TypePages.Link.Inline
import TypePages.Link.PagePath
import TypePages.Link.Target
import TypePages.Main
import TypePages.Markdown.Table
import TypePages.Member.Kind
import TypePages.Member.Sources
import TypePages.Member.Table
import TypePages.Member.Trace
import TypePages.Message.Description
import TypePages.Message.Kind
import TypePages.Message.Layout
import TypePages.Message.Numeral
import TypePages.Message.Part
import TypePages.Message.Subject
import TypePages.Message.Template
import TypePages.Message.Text
import TypePages.Model.Ancestry
import TypePages.Model.Basic
import TypePages.Model.Catalog
import TypePages.Naming
import TypePages.Note
import TypePages.Number.Arithmetic
import TypePages.Number.Binary64
import TypePages.Number.Rounded
import TypePages.Number.Shortest
import TypePages.Page.Basic
import TypePages.Page.Details
import TypePages.Proofs.Ancestry
import TypePages.Proofs.Catalog
import TypePages.Proofs.Order
import TypePages.Proofs.Refusal
import TypePages.Run.CommandLine
import TypePages.Run.FileTree
import TypePages.Run.Generate
import TypePages.Summary.Builder
import TypePages.Summary.Record
import TypePages.Summary.Row
import TypePages.Summary.Section
import TypePages.Text.Basic
import TypePages.Text.Blank
import TypePages.Text.Case
import TypePages.Text.CaseTable
import TypePages.Text.Chars
import TypePages.Text.Digit
import TypePages.Text.Lowercase
import TypePages.Text.Printable
import TypePages.Text.Ranges
import TypePages.Text.Word
import TypePages.Value.Basic
import TypePages.Value.Display
import TypePages.Value.Prose
import TypePages.Value.Read
import TypePages.Yaml.Block
import TypePages.Yaml.Document
import TypePages.Yaml.Flow
import TypePages.Yaml.Mark
import TypePages.Yaml.Node
import TypePages.Yaml.Plain
import TypePages.Yaml.Token
import TypePages.Proofs.Table
import TypePages.Proofs.Naming
import TypePages.Proofs.Hiding
import TypePages.Proofs.Groups
import TypePages.Proofs.Nearest
import TypePages.Proofs.Properties
import TypePages.Proofs.Synthesis
import TypePages.Proofs.Precedence
import TypePages.Proofs.Writing
import TypePages.Proofs.TableText
import TypePages.Proofs.Rows
import TypePages.Proofs.Links
import TypePages.Proofs.History
import TypePages.Proofs.Lending
import TypePages.Proofs.Completion
import TypePages.Proofs.Rebuild
import TypePages.Proofs.Separation
import TypePages.Proofs.Targets
import TypePages.Proofs.Cutting
import TypePages.Proofs.Collapse
import TypePages.Proofs.PagePath
import TypePages.Proofs.References
import TypePages.Proofs.Sentences
import TypePages.Proofs.Records
import TypePages.Proofs.Details
import TypePages.Proofs.FileTree
import TypePages.Proofs.PageFiles
import TypePages.Proofs.Runs
import TypePages.Proofs.Pages
import TypePages.Proofs.Lines
import TypePages.Proofs.Prose
import TypePages.Proofs.Respaced
import TypePages.Proofs.TargetOrder
import TypePages.Proofs.WholeTags
import TypePages.Proofs.DefaultMessages
import TypePages.Proofs.Rendering
import TypePages.Proofs.Ink
import TypePages.Proofs.Reordered
import TypePages.Proofs.GroupOrder
import TypePages.Proofs.Packages
import TypePages.Proofs.AccessorTags
import TypePages.Proofs.BelowRoot
import TypePages.Proofs.TargetFiles
import TypePages.Proofs.WaitingRows
import TypePages.Proofs.TableRows
import TypePages.Proofs.Chains
import TypePages.Proofs.Layers
import TypePages.Proofs.Preorder
import TypePages.Proofs.WholeSections
import TypePages.Proofs.Canonical
import TypePages.Proofs.Overloads
import TypePages.Proofs.AccessorNames
import TypePages.Proofs.PropertySources
import TypePages.Proofs.Paragraphs
import TypePages.Proofs.FirstSentence
import TypePages.Proofs.AnchorWords
import TypePages.Proofs.Equality
import TypePages.Proofs.Merge
import TypePages.Proofs.Absorption
import TypePages.Proofs.Bindings
import TypePages.Proofs.FileBindings
import TypePages.Proofs.Header
import TypePages.Proofs.TagByTag
import TypePages.Proofs.TypeArguments
import TypePages.Proofs.BaseNames
import TypePages.Proofs.LongestPrefix
import TypePages.Proofs.Trimmed
import TypePages.Proofs.Leaves
