import Oscan.Preservation.CachedTypes
import Oscan.Preservation.Accepted
import Oscan.Exhaustive.Match
import Oscan.Order.Independent
import Oscan.Runtime.IntegerText
import Oscan.Runtime.Strings
import Oscan.Runtime.GlobLanguage
import Oscan.Runtime.ArraySort
import Oscan.Runtime.Sha256Digest
import Oscan.Codegen.Bitwise
import Oscan.Codegen.Injective
import Oscan.Codegen.Grouping
import Oscan.Control.Arenas
import Oscan.Control.Loops
import Oscan.Selection.First
import Oscan.Iteration
import Oscan.Codegen.Reproducible
import Oscan.Runtime.TypedMap
import Oscan.Codegen.StringLiteral
import Oscan.Backend.Contained
import Oscan.Backend.WellFounded
import Oscan.Backend.CTypes
import Oscan.Backend.Emitted
import Oscan.Backend.Fitting
import Oscan.Backend.Agreement
import Oscan.Backend.LayoutsAgree
import Oscan.Storage.Memory
import Oscan.Storage.Hits
import Oscan.Constants.FoldAgree
import Oscan.Control.Returns
import Oscan.Backend.SymbolsApart
import Oscan.Backend.ExternShimsFit
import Oscan.Sources.Resolved
import Oscan.Sidecar.Usable
import Oscan.Sidecar.Confined
import Oscan.Runtime.Checked
import Oscan.Runtime.Arena
import Oscan.Runtime.ArenaSound
import Oscan.Library.Acting
import Oscan.Runtime.Array
import Oscan.Runtime.ArrayMeaning
import Oscan.Runtime.ArrayMemory
import Oscan.Runtime.ArrayRefines
import Oscan.Runtime.ArrayCalls
import Oscan.Runtime.ArrayRuns
import Oscan.Library.Parsing
import Oscan.Syntax.Token
import Oscan.Syntax.Parser
import Oscan.Syntax.Sound
import Oscan.Syntax.Program
import Oscan.Syntax.ProgramSound
import Oscan.Syntax.Lexer
import Oscan.Syntax.LexerSound
import Oscan.Syntax.Lookahead
import Oscan.Syntax.LexerLocal
import Oscan.Syntax.Embedding
import Oscan.Syntax.Interpolation
import Oscan.Library.Grammar
import Oscan.Syntax.Grammar
import Oscan.Syntax.Decided
import Oscan.Library.Words
import Oscan.Preservation.ArmOrder
import Oscan.Extraction.Safe
import Oscan.Linking.Features
import Oscan.Runtime.TextLayout
import Oscan.Runtime.Certificate
import Oscan.Runtime.Pixels
import Oscan.Runtime.ReadLine
import Oscan.Runtime.FileTransfer
import Oscan.Runtime.SystemText
import Oscan.Runtime.StandardStreams
import Oscan.Runtime.TlsStream
import Oscan.Library.Recorded
import Oscan.Linking.Manifest
import Oscan.Linking.Discovery
import Oscan.Linking.Driver
import Oscan.Linking.Plan
import Oscan.Linking.Untrusted
