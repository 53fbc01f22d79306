import LabelledEnum.Main
import LabelledEnum.Proofs.ClassId.ClassName
import LabelledEnum.Proofs.CommandLine.Acts
import LabelledEnum.Proofs.CommandLine.Agreement
import LabelledEnum.Proofs.CommandLine.Aliases
import LabelledEnum.Proofs.CommandLine.DryRun
import LabelledEnum.Proofs.CommandLine.ExitCodes
import LabelledEnum.Proofs.CommandLine.Printing
import LabelledEnum.Proofs.CommandLine.Spelling
import LabelledEnum.Proofs.Files.Preview
import LabelledEnum.Proofs.Files.Replacing
import LabelledEnum.Proofs.Generation
import LabelledEnum.Proofs.Identifier
import LabelledEnum.Proofs.Request.Verdict
import LabelledEnum.Proofs.Source.Docblock
import LabelledEnum.Proofs.Source.EnumClass
import LabelledEnum.Proofs.Source.Member
import LabelledEnum.Proofs.Source.Reading
import LabelledEnum.Proofs.ValueList.Composition
import LabelledEnum.Proofs.ValueList.Labels
import LabelledEnum.Proofs.Source.Import
import LabelledEnum.Proofs.Source.LineEnds
import LabelledEnum.Proofs.Generation.Log
import LabelledEnum.Proofs.Listing.Correspondence
import LabelledEnum.Proofs.Source.LineByLine
import LabelledEnum.Proofs.Source.Room
import LabelledEnum.Proofs.Identifier.Runs
