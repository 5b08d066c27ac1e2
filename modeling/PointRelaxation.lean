import PointRelaxation.Main
import PointRelaxation.Scene.Heatmap
import PointRelaxation.Text.Lines
import PointRelaxation.Proofs.FixedPoint
import PointRelaxation.Proofs.Maximum
import PointRelaxation.Proofs.Iteration
import PointRelaxation.Proofs.SnapshotOrder
import PointRelaxation.Proofs.WordCells
import PointRelaxation.Proofs.Evaluation
import PointRelaxation.Proofs.Interruption
import PointRelaxation.Proofs.LiveView
import PointRelaxation.Proofs.DrawAccount
import PointRelaxation.Proofs.Report
import PointRelaxation.Proofs.Freezing
import PointRelaxation.Proofs.Draft
import PointRelaxation.Proofs.AutomaticName
import PointRelaxation.Proofs.RoundedArithmetic
import PointRelaxation.Proofs.Binary64Words
import PointRelaxation.Proofs.Binary64Rounding
import PointRelaxation.Proofs.Binary64Arithmetic
import PointRelaxation.Proofs.GridClosure
import PointRelaxation.Proofs.FieldArithmetic
import PointRelaxation.Proofs.Satisfaction
import PointRelaxation.Proofs.FoldingScene
import PointRelaxation.Proofs.TracedCalls
import PointRelaxation.Proofs.NodeNames
import PointRelaxation.Proofs.PictureText
import PointRelaxation.Proofs.Binary64Counts
import PointRelaxation.Proofs.Binary64Sizes
import PointRelaxation.Proofs.Binary64Sums
import PointRelaxation.Proofs.Ranking
import PointRelaxation.Proofs.Settling
import PointRelaxation.Proofs.DegenerateMoves
import PointRelaxation.Proofs.CloudCells
import PointRelaxation.Proofs.SolutionSummary
import PointRelaxation.Proofs.Ascent
import PointRelaxation.Proofs.CloudShift
import PointRelaxation.Proofs.Binary64Nearest
import PointRelaxation.Proofs.Binary64Lengths
import PointRelaxation.Proofs.Directions
import PointRelaxation.Proofs.OppositeDirections
import PointRelaxation.Proofs.TopFraction
import PointRelaxation.Proofs.EscapedText
import PointRelaxation.Proofs.MovedPlane
import PointRelaxation.Proofs.FarthestPoint
import PointRelaxation.Proofs.CrossingLines
import PointRelaxation.Proofs.DecimalNumerals
import PointRelaxation.Proofs.CompactNumbers
import PointRelaxation.Proofs.FirstMaximum
import PointRelaxation.Proofs.ViewMapping
import PointRelaxation.Proofs.PointNames
import PointRelaxation.Proofs.AbridgedLength
