import DeckScript.Main
import DeckScript.Proofs.LimitedOutput
import DeckScript.Proofs.OwnFaults
import DeckScript.Proofs.Termination
import DeckScript.Proofs.ChartArguments
import DeckScript.Proofs.LoopEntry
import DeckScript.Proofs.Unrolling
import DeckScript.Proofs.BrokenScript
import DeckScript.Proofs.Composition
import DeckScript.Proofs.VariableNames
import DeckScript.Proofs.ReckoningRun
import DeckScript.Proofs.IncludeStack
import DeckScript.Proofs.WholeElements
import DeckScript.Proofs.RandomDraws
import DeckScript.Proofs.GridPlaces
import DeckScript.Proofs.LineReader
import DeckScript.Proofs.InertLines
import DeckScript.Proofs.ToolRun
import DeckScript.Proofs.TokenSpacing
import DeckScript.Proofs.EmptyLines
import DeckScript.Proofs.NumberFaults
import DeckScript.Proofs.BoundWords
import DeckScript.Proofs.FileLoops
import DeckScript.Proofs.FileLines
import DeckScript.Proofs.FilesWritten
import DeckScript.Proofs.DecodedLines
import DeckScript.Proofs.AttributeTokens
import DeckScript.Proofs.Figures
import DeckScript.Proofs.RangeLoops
import DeckScript.Proofs.NumberNotation
