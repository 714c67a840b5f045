import ModelPatch.Bytes.Lemmas
import ModelPatch.Disk.Tree
import ModelPatch.Main
import ModelPatch.Proofs.ByteReads
import ModelPatch.Proofs.CallCode
import ModelPatch.Proofs.GroupCode
import ModelPatch.Proofs.TableLayout
import ModelPatch.Proofs.SkeletonSearch
import ModelPatch.Proofs.PatchStages
import ModelPatch.Proofs.PatchFrame
import ModelPatch.Proofs.PatchJumps
import ModelPatch.Proofs.PatchHeader
import ModelPatch.Proofs.Refusals
import ModelPatch.Proofs.PatchRefusals
import ModelPatch.Proofs.CallSize
import ModelPatch.Proofs.TwoPass
import ModelPatch.Proofs.FirstOffence
import ModelPatch.Proofs.SkeletonPlace
import ModelPatch.Proofs.MentionedNames
import ModelPatch.Proofs.Relocation
import ModelPatch.Proofs.OrderedMaps
import ModelPatch.Proofs.MergedSymbols
import ModelPatch.Proofs.Utf8Text
import ModelPatch.Proofs.TrailerRoundTrip
import ModelPatch.Proofs.HexText
import ModelPatch.Proofs.ManifestRoundTrip
import ModelPatch.Proofs.DictionaryNames
import ModelPatch.Proofs.LineLayout
import ModelPatch.Proofs.PlaceholderName
import ModelPatch.Proofs.LineShift
import ModelPatch.Proofs.SectionOrder
import ModelPatch.Proofs.SymbolVersions
import ModelPatch.Proofs.LiteralNames
import ModelPatch.Proofs.SkeletonFormat
import ModelPatch.Proofs.WrittenFiles
import ModelPatch.Proofs.TrailerExtent
import ModelPatch.Proofs.BranchFlags
import ModelPatch.Proofs.SkeletonEnd
import ModelPatch.Proofs.TrailerRecords
import ModelPatch.Proofs.TableComposition
import ModelPatch.Proofs.SourcePrecedence
import ModelPatch.Proofs.Capacity
import ModelPatch.Proofs.DecimalText
import ModelPatch.Proofs.CallOperands
import ModelPatch.Proofs.MatrixHalves
import ModelPatch.Proofs.FixedPointRange
import ModelPatch.Proofs.FixedPointRounding
import ModelPatch.Proofs.PoolGroups
import ModelPatch.Proofs.CallLayout
import ModelPatch.Proofs.DictionaryGrammar
import ModelPatch.Proofs.LineOrder
import ModelPatch.Proofs.DeclarationGrammar
import ModelPatch.Proofs.CallGrammar
import ModelPatch.Proofs.TableListing
import ModelPatch.Proofs.SymbolListing
import ModelPatch.Proofs.ManifestBytes
import ModelPatch.Proofs.ExitCodes
import ModelPatch.Proofs.OffsetGrammar
