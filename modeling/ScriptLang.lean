import ScriptLang.Backend.Connection
import ScriptLang.Bound.Binder
import ScriptLang.Bound.Error
import ScriptLang.Bound.Tree
import ScriptLang.Code.Constant
import ScriptLang.Code.Instruction
import ScriptLang.Code.Lowering
import ScriptLang.Code.Program
import ScriptLang.Config.File
import ScriptLang.Config.Options
import ScriptLang.Config.Settings
import ScriptLang.Config.Toml
import ScriptLang.Decimal.Binary64
import ScriptLang.Decimal.Layout
import ScriptLang.Decimal.Read
import ScriptLang.Decimal.Shortest
import ScriptLang.Diagnostic
import ScriptLang.Diagram.Bound
import ScriptLang.Diagram.Syntax
import ScriptLang.Diagram.Tree
import ScriptLang.Dialogue
import ScriptLang.FileSystem
import ScriptLang.Host
import ScriptLang.Launch.Backend
import ScriptLang.Launch.Error
import ScriptLang.Launch.Frontend
import ScriptLang.Lexer
import ScriptLang.Lexer.Error
import ScriptLang.Lexer.Keyword
import ScriptLang.Lexer.Lexeme
import ScriptLang.Lexer.Profile
import ScriptLang.Lexer.Progress
import ScriptLang.Lexer.State
import ScriptLang.Location
import ScriptLang.Machine.Error
import ScriptLang.Machine.Image
import ScriptLang.Machine.Message
import ScriptLang.Machine.State
import ScriptLang.Machine.Stepper
import ScriptLang.Main
import ScriptLang.Native.Bridge
import ScriptLang.Native.Call
import ScriptLang.Native.Error
import ScriptLang.Native.Library
import ScriptLang.Operator
import ScriptLang.Path
import ScriptLang.Proofs.Acceptance
import ScriptLang.Proofs.AnsweredRequests
import ScriptLang.Proofs.BinderSoundness
import ScriptLang.Proofs.BreakingRuns
import ScriptLang.Proofs.CallIsolation
import ScriptLang.Proofs.ClosedTrees
import ScriptLang.Proofs.ConstantEvaluation
import ScriptLang.Proofs.ConstantRuns
import ScriptLang.Proofs.CountedLoops
import ScriptLang.Proofs.DrawnTrees
import ScriptLang.Proofs.EndOfSource
import ScriptLang.Proofs.EndpointReading
import ScriptLang.Proofs.ErrorOrder
import ScriptLang.Proofs.ExitCodes
import ScriptLang.Proofs.ExpressionParsing
import ScriptLang.Proofs.FrameReading
import ScriptLang.Proofs.FreshStarts
import ScriptLang.Proofs.HaltedSessions
import ScriptLang.Proofs.ImportSearch
import ScriptLang.Proofs.IncludeExpansion
import ScriptLang.Proofs.IntegerArithmetic
import ScriptLang.Proofs.IntegerLiterals
import ScriptLang.Proofs.IntegerTypes
import ScriptLang.Proofs.ItemRecovery
import ScriptLang.Proofs.LibraryRegistry
import ScriptLang.Proofs.LinkedCode
import ScriptLang.Proofs.LinkedRuns
import ScriptLang.Proofs.LiteralSides
import ScriptLang.Proofs.Lookahead
import ScriptLang.Proofs.LoopProgress
import ScriptLang.Proofs.MeaningPreserved
import ScriptLang.Proofs.Mirroring
import ScriptLang.Proofs.ModuleParsing
import ScriptLang.Proofs.NativeCalls
import ScriptLang.Proofs.Nesting
import ScriptLang.Proofs.NodeIdentities
import ScriptLang.Proofs.OperandSafety
import ScriptLang.Proofs.OperatorRules
import ScriptLang.Proofs.OptionGroups
import ScriptLang.Proofs.Registers
import ScriptLang.Proofs.Relocation
import ScriptLang.Proofs.Rendering
import ScriptLang.Proofs.ReportedErrors
import ScriptLang.Proofs.Requesters
import ScriptLang.Proofs.Requests
import ScriptLang.Proofs.ResolvedPrograms
import ScriptLang.Proofs.ReturningRuns
import ScriptLang.Proofs.Serving
import ScriptLang.Proofs.SettingsAsFlags
import ScriptLang.Proofs.SettingsSearch
import ScriptLang.Proofs.SourceTiling
import ScriptLang.Proofs.StageOrder
import ScriptLang.Proofs.StatementRecovery
import ScriptLang.Proofs.Stepping
import ScriptLang.Proofs.SteppingOver
import ScriptLang.Proofs.StoppedRuns
import ScriptLang.Proofs.StringLiterals
import ScriptLang.Proofs.SymbolSearch
import ScriptLang.Proofs.TextReading
import ScriptLang.Proofs.TextSessions
import ScriptLang.Proofs.TriviaOptions
import ScriptLang.Proofs.WideArithmetic
import ScriptLang.Proofs.WordReading
import ScriptLang.Session.Error
import ScriptLang.Session.State
import ScriptLang.Source.Frame
import ScriptLang.Source.Resolver
import ScriptLang.Stage
import ScriptLang.Syntax.Error
import ScriptLang.Syntax.OperatorTable
import ScriptLang.Syntax.Parser
import ScriptLang.Syntax.Program
import ScriptLang.Syntax.TokenReader
import ScriptLang.Syntax.Tree
import ScriptLang.Text.AlphabeticTable
import ScriptLang.Text.Bytes
import ScriptLang.Text.CharClass
import ScriptLang.Text.HiddenTable
import ScriptLang.Text.NumericTable
import ScriptLang.Text.Quoted
import ScriptLang.Text.Words
import ScriptLang.Token
import ScriptLang.Types
import ScriptLang.Value
import ScriptLang.Wire.Client
import ScriptLang.Wire.Codec
import ScriptLang.Wire.Endpoint
import ScriptLang.Wire.Error
import ScriptLang.Wire.Frame
import ScriptLang.Wire.Json
import ScriptLang.Wire.JsonReader
import ScriptLang.Wire.Network
import ScriptLang.Wire.Reading
import ScriptLang.Wire.Values
