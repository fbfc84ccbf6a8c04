import CommandConsole.Main
import CommandConsole.Proofs.Resolution
import CommandConsole.Proofs.Runs
import CommandConsole.Proofs.Lines
import CommandConsole.Proofs.Quoting
import CommandConsole.Proofs.TypedLine
import CommandConsole.Proofs.Branches
import CommandConsole.Proofs.WordSet
import CommandConsole.Proofs.BoundedQuery
import CommandConsole.Proofs.CommandNames
import CommandConsole.Proofs.ArgumentTypes
import CommandConsole.Proofs.CallTree
import CommandConsole.Proofs.Reporting
import CommandConsole.Proofs.AddedCommand
import CommandConsole.Proofs.AddedParser
import CommandConsole.Proofs.Requoting
import CommandConsole.Proofs.RegistrationOrder
import CommandConsole.Proofs.HistoryEntries
import CommandConsole.Proofs.SessionCommands
import CommandConsole.Proofs.CommandAnswers
import CommandConsole.Proofs.SortedSuggestions
import CommandConsole.Proofs.Conversation
import CommandConsole.Proofs.SessionMemory
import CommandConsole.Proofs.Causality
import CommandConsole.Proofs.HistoryReport
import CommandConsole.Proofs.SuggestionQueries
import CommandConsole.Proofs.HistoryRuns
import CommandConsole.Proofs.ProhibitedCharacters
import CommandConsole.Proofs.BuiltinCommands
import CommandConsole.Proofs.ValueText
import CommandConsole.Proofs.Conversions
import CommandConsole.Proofs.NumberCharacters
import CommandConsole.Proofs.VectorGrammar
import CommandConsole.Proofs.TokenKinds
import CommandConsole.Proofs.Arity
import CommandConsole.Proofs.ToldApart
import CommandConsole.Proofs.SplitComposition
import CommandConsole.Proofs.CommandList
import CommandConsole.Proofs.Addition
import CommandConsole.Proofs.BufferSlots
import CommandConsole.Proofs.ColorText
import CommandConsole.Proofs.ShownColors
