import ClassThaw.CommandLine.Disk
import ClassThaw.Draft
import ClassThaw.Main
import ClassThaw.Proofs.Archive.Again
import ClassThaw.Proofs.Archive.EntryName
import ClassThaw.Proofs.Archive.Members
import ClassThaw.Proofs.ClassFile.Nesting
import ClassThaw.Proofs.ClassFile.RoundTrip
import ClassThaw.Proofs.ConstantPool.Invariant
import ClassThaw.Proofs.ConstantPool.Repetition
import ClassThaw.Proofs.Draft.Outcome
import ClassThaw.Proofs.EnumRule.Execution
import ClassThaw.Proofs.HolderRule.Prediction
import ClassThaw.Proofs.Revision.Commutation
import ClassThaw.Proofs.Revision.Count
import ClassThaw.Proofs.Revision.Failure
import ClassThaw.Proofs.Revision.FixedPoint
import ClassThaw.Proofs.Revision.Integrity
import ClassThaw.Proofs.Revision.Opaque
import ClassThaw.Proofs.Revision.Report
import ClassThaw.Proofs.Revision.Target
import ClassThaw.Proofs.Text.Standard
import ClassThaw.Proofs.Text.WellFormed
import ClassThaw.Settings.Describe
