import Multitouch.Touch
import Multitouch.Slots
import Multitouch.Expression
import Multitouch.Expression.Printer
import Multitouch.Grammar.Error
import Multitouch.Grammar.Token
import Multitouch.Grammar.Reader
import Multitouch.Tag
import Multitouch.Network.Table
import Multitouch.Network.Basic
import Multitouch.Network.Unroll
import Multitouch.Network.Closure
import Multitouch.Automaton.Basic
import Multitouch.Automaton.Numbering
import Multitouch.Automaton.Build
import Multitouch.Automaton.Graphviz
import Multitouch.Recognizer.Basic
import Multitouch.Recognizer.Observe
import Multitouch.Text.Charset
import Multitouch.Text.Letters
import Multitouch.Text.Words
import Multitouch.Text.Utf8
import Multitouch.Text.Folding
import Multitouch.Text.Hidden
import Multitouch.Text.Quoted
import Multitouch.Target.Tree
import Multitouch.Target.Room.Build
import Multitouch.Target.Room.Plan
import Multitouch.Target.Room.Words
import Multitouch.Target.Room.Listing
import Multitouch.Target.Room
import Multitouch.Target.Flags
import Multitouch.Target.Escape
import Multitouch.Target.Brackets
import Multitouch.Target.Reader
import Multitouch.Target.Program
import Multitouch.Target.Search
import Multitouch.Journal
import Multitouch.Proofs.Tables
import Multitouch.Proofs.Networks
import Multitouch.Proofs.Closure.Cells
import Multitouch.Proofs.Closure.Debts
import Multitouch.Proofs.Closure.Ends
import Multitouch.Proofs.Closure.Exact
import Multitouch.Proofs.Unrolled
import Multitouch.Proofs.Grammar.Rules
import Multitouch.Proofs.Grammar.Tokens
import Multitouch.Proofs.Automaton.Edges
import Multitouch.Proofs.Automaton.Numbering
import Multitouch.Proofs.Automaton.States
import Multitouch.Proofs.Automaton.Steps
import Multitouch.Proofs.Closure.Offers
import Multitouch.Proofs.Closure.Payments
import Multitouch.Proofs.Grammar.Complete
import Multitouch.Proofs.Grammar.Sound
import Multitouch.Proofs.Grammar.Unambiguous
import Multitouch.Proofs.Grammar.Printed
import Multitouch.Proofs.Language.Accepted
import Multitouch.Proofs.Language.Reading
import Multitouch.Proofs.Language.Unrolling
import Multitouch.Proofs.Language.Words
import Multitouch.Proofs.Recognizer.Faithful
import Multitouch.Proofs.Recognizer.Runs
import Multitouch.Proofs.Recognizer.Histories
import Multitouch.Proofs.Recognizer.Views
import Multitouch.Proofs.Recognizer.Capacity
import Multitouch.Proofs.Recognizer.Independent
import Multitouch.Proofs.Recognizer.Calls
import Multitouch.Proofs.Recognizer.Lifecycle
import Multitouch.Proofs.Network.Budget
import Multitouch.Proofs.Recognizer.Renaming
import Multitouch.Proofs.Automaton.Exits
import Multitouch.Proofs.Recognizer.Outcomes
import Multitouch.Proofs.Automaton.Tags
import Multitouch.Proofs.Slots
import Multitouch.Proofs.Recognizer.Cancelling
import Multitouch.Proofs.Network.Frame
import Multitouch.Proofs.Automaton.Entered
import Multitouch.Proofs.Recognizer.Coherent
import Multitouch.Proofs.Recognizer.Contacts
import Multitouch.Proofs.Text.Utf8
import Multitouch.Proofs.Automaton.Unions
import Multitouch.Proofs.Automaton.Breadth
import Multitouch.Proofs.Automaton.Renumbered
import Multitouch.Proofs.Network.Texts
import Multitouch.Proofs.Automaton.Guards
import Multitouch.Proofs.Grammar.Places
import Multitouch.Proofs.Grammar.Faults
import Multitouch.Proofs.Grammar.Refused
import Multitouch.Proofs.Grammar.Prefix
import Multitouch.Proofs.Grammar.Final
import Multitouch.Proofs.Network.Copies
import Multitouch.Proofs.Automaton.Drawings
