import Snippet.Json.Printer
import Snippet.Record.Kind
import Snippet.LoopSearch
import Snippet.Service
import Snippet.Proofs.Fits
import Snippet.Proofs.RunResult
import Snippet.Proofs.Search
import Snippet.Proofs.Lookup
import Snippet.Proofs.SearchDepth
import Snippet.Proofs.LoopQuestions
import Snippet.Proofs.HeadersInRow
import Snippet.Proofs.FibonacciNumber
import Snippet.Proofs.RunStatus
import Snippet.Proofs.Masking
import Snippet.Proofs.PrintCalls
import Snippet.Proofs.PrintedLiterals
import Snippet.Proofs.Marks
import Snippet.Proofs.Template
import Snippet.Proofs.FibonacciMarks
import Snippet.Proofs.FibonacciProgram
import Snippet.Proofs.HiddenText
import Snippet.Proofs.JsonRoundTrip
import Snippet.Proofs.RecordReading
import Snippet.Proofs.ServiceAgreement
import Snippet.Proofs.MaskedLines
import Snippet.Proofs.LoopWords
import Snippet.Proofs.IndentedProgram
import Snippet.Proofs.LoopReach
import Snippet.Proofs.SpanNesting
import Snippet.Proofs.BracedProgram
import Snippet.Proofs.Deciding
import Snippet.Proofs.KindAndGrowth
import Snippet.Proofs.AdviceList
import Snippet.Proofs.AdviceImpact
import Snippet.Proofs.PrintedRanges
import Snippet.Proofs.UnmaskedReads
import Snippet.Proofs.CommentExchange
import Snippet.Proofs.VisibleText
import Snippet.Proofs.MaskedAgain
import Snippet.Proofs.RunSequence
import Snippet.Proofs.WrittenRecords
import Snippet.Proofs.Surroundings
import Snippet.Proofs.LoopsInSequence
import Snippet.Proofs.TripleLiteral
import Snippet.Proofs.Boundaries
import Snippet.Proofs.Gaps
import Snippet.Proofs.GapsInBodies
import Snippet.Proofs.LiteralInside
import Snippet.Proofs.EnclosedLoops
import Snippet.Proofs.LinesBehind
import Snippet.Proofs.Replacement
import Snippet.Proofs.EntryPoint
import Snippet.Proofs.ConditionalBody
import Snippet.Proofs.DoConditions
import Snippet.Proofs.DoPrograms
import Snippet.Proofs.OwnCalls
import Snippet.Proofs.DefinitionLines
import Snippet.Proofs.SplitParameters
import Snippet.Proofs.IndentedFunctions
import Snippet.Proofs.BracedHeaders
import Snippet.Proofs.BracedFunctions
import Snippet.Proofs.FunctionPrograms
import Snippet.Proofs.PrintOrder
import Snippet.Proofs.CallArguments
import Snippet.Proofs.LexemeLayouts
import Snippet.Proofs.BlockFreeProgram
import Snippet.Proofs.MovedHeaders
import Snippet.Proofs.BlankLines
import Snippet.Proofs.LoopTally
import Snippet.Proofs.Pieces
import Snippet.Proofs.AllowedOrigins
import Snippet.Proofs.VariabilityOfSettings
import Snippet.Proofs.FibonacciOutcome
import Snippet.Proofs.BracketPartner
import Snippet.Proofs.PartsOfRanges
import Snippet.Proofs.StatementSteps
