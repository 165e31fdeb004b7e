import VirtualShell.Main
import VirtualShell.Session.Completion
import VirtualShell.Proofs.Path.Normal
import VirtualShell.Proofs.Tree.Entry
import VirtualShell.Proofs.Tree.Edit
import VirtualShell.Proofs.Command.Transfer
import VirtualShell.Proofs.Command.Edits
import VirtualShell.Proofs.Session.Run
import VirtualShell.Proofs.Json.Layout
import VirtualShell.Proofs.Entries
import VirtualShell.Proofs.Json.Reading
import VirtualShell.Proofs.Tree.Everywhere
import VirtualShell.Proofs.Tree.Document
import VirtualShell.Proofs.Tree.Loading
import VirtualShell.Proofs.Session.Snapshot
import VirtualShell.Proofs.Command.Creation
import VirtualShell.Proofs.Tree.Resolution
import VirtualShell.Proofs.Session.Names
import VirtualShell.Proofs.Session.Frame
import VirtualShell.Proofs.Session.History
import VirtualShell.Proofs.Command.Assignment
import VirtualShell.Proofs.Session.Variables
import VirtualShell.Proofs.Command.Operands
import VirtualShell.Proofs.Session.Operands
import VirtualShell.Proofs.CommandLine.Conversation
import VirtualShell.Proofs.Command.Relocation
import VirtualShell.Proofs.Session.Relocation
import VirtualShell.Proofs.Tree.Wrapping
import VirtualShell.Proofs.Text.Lines
import VirtualShell.Proofs.CommandLine.SingleLine
import VirtualShell.Proofs.Registry.Order
import VirtualShell.Proofs.Registry.Views
import VirtualShell.Proofs.Tree.Removal
import VirtualShell.Proofs.Command.Removal
import VirtualShell.Proofs.Session.Removal
import VirtualShell.Proofs.Tree.Undo
import VirtualShell.Proofs.Command.Undo
import VirtualShell.Proofs.Session.Undo
import VirtualShell.Proofs.Tree.Insertion
import VirtualShell.Proofs.Tree.Growth
import VirtualShell.Proofs.Session.Creation
import VirtualShell.Proofs.Command.Discard
import VirtualShell.Proofs.Path.Joining
import VirtualShell.Proofs.Tree.Detachment
import VirtualShell.Proofs.Tree.Usage
import VirtualShell.Proofs.Command.Usage
import VirtualShell.Proofs.Command.Search
import VirtualShell.Proofs.Variables.Expansion
import VirtualShell.Proofs.Command.Export
import VirtualShell.Proofs.Session.Echo
import VirtualShell.Proofs.Session.Navigation
import VirtualShell.Proofs.Text.Case
import VirtualShell.Proofs.Command.Selection
import VirtualShell.Proofs.Number.Rounding
import VirtualShell.Proofs.Number.Decimal
import VirtualShell.Proofs.Command.Arrangement
import VirtualShell.Proofs.Command.Excerpt
import VirtualShell.Proofs.Command.Stretches
import VirtualShell.Proofs.Text.Regular
import VirtualShell.Proofs.Command.Permission
import VirtualShell.Proofs.Session.Completion
import VirtualShell.Proofs.Path.Spelling
import VirtualShell.Proofs.Path.Ancestry
import VirtualShell.Proofs.Command.Columns
import VirtualShell.Proofs.Tree.Slot
import VirtualShell.Proofs.Tree.Balance
import VirtualShell.Proofs.Session.Balance
