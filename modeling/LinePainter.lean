import LinePainter.Decimal
import LinePainter.Main
import LinePainter.Proofs.Line.Coverage
import LinePainter.Proofs.Line.Session
import LinePainter.Proofs.Line.Writing
import LinePainter.Proofs.Theme.Generation
import LinePainter.Proofs.Terminal.Emulator
import LinePainter.Proofs.Terminal.ShownFrame
import LinePainter.Proofs.PairTable.Growth
import LinePainter.Proofs.Theme.Looks
import LinePainter.Proofs.Line.Rejoining
import LinePainter.Proofs.Line.Breaks
import LinePainter.Proofs.SampleLog.Lines
import LinePainter.Proofs.Line.Overruns
import LinePainter.Proofs.Line.Passes
import LinePainter.Proofs.Expansion.Offsets
import LinePainter.Proofs.Line.Extraction
import LinePainter.Proofs.Line.Undoing
import LinePainter.Proofs.Line.WholeLine
import LinePainter.Proofs.Theme.Recipes
import LinePainter.Proofs.Palette.Matching
import LinePainter.Proofs.Frame.Drawing
import LinePainter.Proofs.Palette.Reading
import LinePainter.Proofs.Options.Grammar
import LinePainter.Proofs.Span.Overlap
import LinePainter.Proofs.Painting.Permanence
import LinePainter.Proofs.Painting.RowOrder
import LinePainter.Proofs.Painting.Repainting
import LinePainter.Proofs.Program.Completion
import LinePainter.Proofs.Painting.Overflow
import LinePainter.Proofs.Painting.Composition
import LinePainter.Proofs.Painting.Picture
import LinePainter.Proofs.Painting.Outcomes
import LinePainter.CheckedPainting
import LinePainter.Proofs.Expansion.Clipping
