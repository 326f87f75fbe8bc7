import SqfMinifier.Main
import SqfMinifier.Proofs.Lines
import SqfMinifier.Proofs.TokenReading
import SqfMinifier.Proofs.ScanPieces
import SqfMinifier.Proofs.CharacterScan
import SqfMinifier.Proofs.CommentFree
import SqfMinifier.Proofs.BlankRuns
import SqfMinifier.Proofs.LineLayout
import SqfMinifier.Proofs.Readers
import SqfMinifier.Proofs.LayoutScan
import SqfMinifier.Proofs.NormalForm
import SqfMinifier.Proofs.TokenLists
import SqfMinifier.Proofs.TokenSpans
import SqfMinifier.Proofs.ScanCursor
import SqfMinifier.Proofs.ScanEnds
import SqfMinifier.Proofs.ScanContext
import SqfMinifier.Proofs.LineEndings
import SqfMinifier.Proofs.DirectiveLayout
import SqfMinifier.Proofs.DirectiveLines
import SqfMinifier.Proofs.LayoutContent
import SqfMinifier.Proofs.Literals
import SqfMinifier.Proofs.LiteralLayout
import SqfMinifier.Proofs.FileWrites
import SqfMinifier.Proofs.RunEffects
import SqfMinifier.Proofs.ArgumentSpelling
import SqfMinifier.Proofs.RunAgreement
import SqfMinifier.Proofs.OutputNames
import SqfMinifier.Proofs.DirectiveSpacing
import SqfMinifier.Proofs.CodeTokens
import SqfMinifier.Proofs.TomlKeys
import SqfMinifier.Proofs.SettingsMerge
import SqfMinifier.Proofs.LayerResolution
import SqfMinifier.Proofs.LayoutAnchors
import SqfMinifier.Proofs.LiteralSpacing
import SqfMinifier.Proofs.TagDumps
import SqfMinifier.Proofs.JsonReading
import SqfMinifier.Proofs.JsonDumps
import SqfMinifier.Proofs.OutputSize
import SqfMinifier.Proofs.LineCuts
import SqfMinifier.Proofs.PassNormalForms
import SqfMinifier.Proofs.OpenComments
import SqfMinifier.Proofs.SiblingOutputs
