import ScriptCheck.Analysis.Script
import ScriptCheck.Syntax.Builder
import ScriptCheck.Proofs.CaptureKinds
import ScriptCheck.Proofs.Narrowing
import ScriptCheck.Proofs.FrameLayout
import ScriptCheck.Proofs.NarrowedReads
import ScriptCheck.Proofs.Templates
import ScriptCheck.Proofs.CompleteNotes
import ScriptCheck.Proofs.Composition
import ScriptCheck.Proofs.AssignabilityOrder
import ScriptCheck.Proofs.FreeOccurrences
import ScriptCheck.Proofs.TypeMeanings
import ScriptCheck.Proofs.JumpPlacement
import ScriptCheck.Proofs.NameIndex
import ScriptCheck.Proofs.GlobalSelection
import ScriptCheck.Proofs.StepOperators
