import DirectiveLowering.Document.Script
import DirectiveLowering.Version
import DirectiveLowering.Workspace.Processor
import DirectiveLowering.Proofs.Components
import DirectiveLowering.Proofs.DocumentOrder
import DirectiveLowering.Proofs.Faultless
import DirectiveLowering.Proofs.Frame
import DirectiveLowering.Proofs.Gating
import DirectiveLowering.Proofs.GluedWords
import DirectiveLowering.Proofs.Interruption
import DirectiveLowering.Proofs.PlainWords
import DirectiveLowering.Proofs.Relocated
import DirectiveLowering.Proofs.SecondPass
import DirectiveLowering.Proofs.Termination
import DirectiveLowering.Proofs.TwoPasses
import DirectiveLowering.Proofs.UpperWords
import DirectiveLowering.Proofs.Verbosity
