import Backstep.ErrorType.Generate
import Backstep.Machine.Action
import Backstep.Main
import Backstep.Proofs.ExceptLaws
import Backstep.Proofs.Machine.StepLaws
import Backstep.Proofs.Machine.Reachable
import Backstep.Proofs.Machine.WellFormed
import Backstep.Proofs.Machine.TimeTravel
import Backstep.Proofs.Machine.RunLaws
import Backstep.Proofs.Machine.Breakpoints
import Backstep.Proofs.Machine.InstructionTable
import Backstep.Proofs.Machine.StopConditions
import Backstep.Proofs.Machine.Reset
import Backstep.Proofs.Machine.HistoryLimit
import Backstep.Proofs.Asm.TokenLaws
import Backstep.Proofs.Isa.EncodingLaws
import Backstep.Proofs.Asm.Meaning
import Backstep.Proofs.Asm.References
import Backstep.Proofs.Program.Symbols
import Backstep.Proofs.Asm.DataWords
import Backstep.Proofs.Isa.OperandChecks
import Backstep.Proofs.Asm.WrittenLines
import Backstep.Proofs.Asm.InstructionLines
import Backstep.Proofs.Program.Reassembly
import Backstep.Proofs.Asm.Refusals
import Backstep.Proofs.Machine.MemorySize
import Backstep.Proofs.Program.Multiplication
import Backstep.Proofs.Asm.Concatenation
import Backstep.Proofs.Program.ObjectFiles
import Backstep.Proofs.Prompt.BoundedRuns
import Backstep.Proofs.Asm.Retouching
import Backstep.Proofs.MemoryImages
import Backstep.Proofs.Asm.AppendedLines
import Backstep.Proofs.Asm.ImmediateNumerals
import Backstep.Proofs.Asm.OperandSpellings
import Backstep.Proofs.Asm.HeadedLines
import Backstep.Proofs.Asm.Respelling
import Backstep.Proofs.Asm.RegisterSpellings
import Backstep.Proofs.Prompt.CommandForms
import Backstep.Proofs.Prompt.MemoryDumps
import Backstep.Proofs.Program.Atomicity
import Backstep.Proofs.ErrorType.GeneratedCode
import Backstep.Proofs.ErrorType.Causes
import Backstep.Proofs.Program.Inputs
import Backstep.Proofs.Asm.Diagnostics
import Backstep.Proofs.ErrorType.Placeholders
import Backstep.Proofs.ErrorType.Renaming
import Backstep.Proofs.ErrorType.FormatStrings
import Backstep.Proofs.ErrorType.DisplayArms
import Backstep.Proofs.ErrorType.Refusals
import Backstep.Proofs.ErrorType.Scopes
