import SwiftAccess.Access
import SwiftAccess.Token
import SwiftAccess.Resolution
import SwiftAccess.Text.Blank
import SwiftAccess.Text.WordChar
import SwiftAccess.Text.GraphemeExtend
import SwiftAccess.Text.Printable
import SwiftAccess.Text.Search
import SwiftAccess.Text.Utf8
import SwiftAccess.Lexer.State
import SwiftAccess.Lexer.Literal
import SwiftAccess.Lexer.Word
import SwiftAccess.Lexer.Line
import SwiftAccess.Lexer.Offsets
import SwiftAccess.Scope
import SwiftAccess.Classification
import SwiftAccess.Edit
import SwiftAccess.Edit.Offsets
import SwiftAccess.Buffer
import SwiftAccess.Host.Selection
import SwiftAccess.Host.Config
import SwiftAccess.Host.Invocation
import SwiftAccess.Json.Skip
import SwiftAccess.Host.Manifest
import SwiftAccess.Cli.Options
import SwiftAccess.Text.Similarity
import SwiftAccess.Json.Write
import SwiftAccess.Cli.Parse
import SwiftAccess.Cli.Log
import SwiftAccess.Cli.Run
import SwiftAccess.Main
import SwiftAccess.Json.Error
import SwiftAccess.Json.Scan
import SwiftAccess.Text.Binary64
import SwiftAccess.Json.Number
import SwiftAccess.Proofs.ScopeRun
import SwiftAccess.Proofs.BufferLines
import SwiftAccess.Proofs.ScopeGating
import SwiftAccess.Proofs.CodeWords
import SwiftAccess.Proofs.WordScan
import SwiftAccess.Proofs.LocateSplit
import SwiftAccess.Proofs.ParenDepth
import SwiftAccess.Proofs.TokenEdit
import SwiftAccess.Proofs.SiteScan
import SwiftAccess.Proofs.KeywordSite
import SwiftAccess.Proofs.RewriteRelex
import SwiftAccess.Proofs.ScopeShape
import SwiftAccess.Proofs.PublicRoundTrip
import SwiftAccess.Proofs.BraceFrames
import SwiftAccess.Proofs.InheritedLevels
import SwiftAccess.Proofs.EditedTokens
import SwiftAccess.Proofs.FaithfulRewrite
import SwiftAccess.Proofs.RewriteAgain
import SwiftAccess.Proofs.LevelReadBack
import SwiftAccess.Proofs.MemberLevel
import SwiftAccess.Proofs.LineLayout
import SwiftAccess.Proofs.KeywordRuns
import SwiftAccess.Proofs.CommentScan
import SwiftAccess.Proofs.MarkerFreeScan
import SwiftAccess.Proofs.CommentedWords
import SwiftAccess.Proofs.CommentsAsBlanks
import SwiftAccess.Proofs.SelectionText
import SwiftAccess.Proofs.PerformOutcome
import SwiftAccess.Proofs.LiteralContents
import SwiftAccess.Proofs.ByteSearch
import SwiftAccess.Proofs.EditOffsets
import SwiftAccess.Proofs.LexOffsets
