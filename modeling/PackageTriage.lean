import PackageTriage.Action
import PackageTriage.Artifact.Basic
import PackageTriage.Artifact.Store
import PackageTriage.Attempt
import PackageTriage.Bytes.Layout
import PackageTriage.Bytes.Matrix
import PackageTriage.Bytes.Models
import PackageTriage.Choice
import PackageTriage.Classes
import PackageTriage.Classifier
import PackageTriage.CommandLine.Commands
import PackageTriage.CommandLine.Complaint
import PackageTriage.CommandLine.Console
import PackageTriage.CommandLine.Invocation
import PackageTriage.CommandLine.Options
import PackageTriage.Csv.Reading
import PackageTriage.Csv.Writing
import PackageTriage.Decimal.Basic
import PackageTriage.Decimal.Reading
import PackageTriage.Decimal.Shortest
import PackageTriage.Decimal.Style
import PackageTriage.Error
import PackageTriage.Family
import PackageTriage.Feature.Dataset
import PackageTriage.Feature.Directory
import PackageTriage.Feature.File
import PackageTriage.Feature.Value
import PackageTriage.Folds
import PackageTriage.Grids.Basic
import PackageTriage.Grids.Choices
import PackageTriage.Grids.Json
import PackageTriage.Hyperparameters
import PackageTriage.Json.Reading
import PackageTriage.Json.Value
import PackageTriage.Json.Writing
import PackageTriage.Label
import PackageTriage.Machine.Gamma
import PackageTriage.Machine.Optimization
import PackageTriage.Machine.VectorMachine
import PackageTriage.Main
import PackageTriage.Matrix
import PackageTriage.Metrics.Confusion
import PackageTriage.Metrics.Scores
import PackageTriage.NaiveBayes
import PackageTriage.Network.Activation
import PackageTriage.Network.Layer
import PackageTriage.Network.Parameters
import PackageTriage.Network.Perceptron
import PackageTriage.Network.QuasiNewton
import PackageTriage.Network.Solver
import PackageTriage.Network.Stochastic
import PackageTriage.Path
import PackageTriage.Prediction.Predictor
import PackageTriage.Prediction.Report
import PackageTriage.Random.ChaCha
import PackageTriage.Random.Generator
import PackageTriage.Random.Subset
import PackageTriage.Random.Xoshiro
import PackageTriage.Scalar
import PackageTriage.Scaling.Method
import PackageTriage.Scaling.Scaler
import PackageTriage.Settings.Basic
import PackageTriage.Settings.File
import PackageTriage.Settings.Json
import PackageTriage.Spelling
import PackageTriage.Statistics
import PackageTriage.Storage.Disk
import PackageTriage.Storage.FileSystem
import PackageTriage.Storage.Walk
import PackageTriage.Text.Blank
import PackageTriage.Text.Hidden
import PackageTriage.Text.Lines
import PackageTriage.Text.Quoted
import PackageTriage.Training.Request
import PackageTriage.Training.Run
import PackageTriage.Tree.DecisionTree
import PackageTriage.Tree.Forest
import PackageTriage.Tree.Growth
import PackageTriage.Tree.Node
import PackageTriage.Tree.Split
import PackageTriage.Validation.CrossValidation
import PackageTriage.Validation.Report
import PackageTriage.Proofs.Folds.Partition
import PackageTriage.Proofs.Folds.Stratification
import PackageTriage.Proofs.Classifier.Rows
import PackageTriage.Proofs.Network.Depth
import PackageTriage.Proofs.Sequences
import PackageTriage.Proofs.Classifier.Fitting
import PackageTriage.Proofs.Classifier.Width
import PackageTriage.Proofs.Metrics.Counts
import PackageTriage.Proofs.Validation.OutOfFold
import PackageTriage.Proofs.Validation.TwoClasses
import PackageTriage.Proofs.Bytes.Lawful
import PackageTriage.Proofs.Bytes.Models
import PackageTriage.Proofs.Bytes.Readers
import PackageTriage.Proofs.Bytes.SelfDelimiting
import PackageTriage.Proofs.Storage.Aim
import PackageTriage.Proofs.Storage.Changes
import PackageTriage.Proofs.Storage.Runs
import PackageTriage.Proofs.Storage.Slots
import PackageTriage.Proofs.Storage.Torn
import PackageTriage.Proofs.Training.Effects
import PackageTriage.Proofs.Prediction.Loading
import PackageTriage.Proofs.Training.History
import PackageTriage.Proofs.Training.LastWrites
import PackageTriage.Proofs.Training.Outputs
import PackageTriage.Proofs.Training.Rejection
import PackageTriage.Proofs.Classifier.Alike
import PackageTriage.Proofs.Prediction.Agreement
import PackageTriage.Proofs.Prediction.Directory
import PackageTriage.Proofs.Bytes.Fitted
import PackageTriage.Proofs.Classifier.Answers
import PackageTriage.Proofs.Classifier.Classes
import PackageTriage.Proofs.Classifier.Majority
import PackageTriage.Proofs.Classifier.Failure
import PackageTriage.Proofs.Classifier.Labels
import PackageTriage.Proofs.Classifier.Refitting
import PackageTriage.Proofs.Decimal.Digits
import PackageTriage.Proofs.Decimal.Nearest
import PackageTriage.Proofs.Decimal.Numeral
import PackageTriage.Proofs.Decimal.ReadBack
import PackageTriage.Proofs.Decimal.Shortest
import PackageTriage.Proofs.Folds.Dealing
import PackageTriage.Proofs.Grids.Choices
import PackageTriage.Proofs.Grids.Files
import PackageTriage.Proofs.Json.Entries
import PackageTriage.Proofs.Json.Pieces
import PackageTriage.Proofs.Json.ReadBack
import PackageTriage.Proofs.Machine.Coefficients
import PackageTriage.Proofs.Machine.Balance
import PackageTriage.Proofs.Machine.Support
import PackageTriage.Proofs.Machine.Visits
import PackageTriage.Proofs.Network.Shapes
import PackageTriage.Proofs.Random.Draws
import PackageTriage.Proofs.Scalar.Midpoints
import PackageTriage.Proofs.Scalar.Nearest
import PackageTriage.Proofs.Scalar.Order
import PackageTriage.Proofs.Scalar.Packing
import PackageTriage.Proofs.Scalar.Reals
import PackageTriage.Proofs.Scalar.Rounding
import PackageTriage.Proofs.Scalar.Zeros
import PackageTriage.Proofs.Selection
import PackageTriage.Proofs.Settings.ReadBack
import PackageTriage.Proofs.Training.Success
import PackageTriage.Proofs.Tree.Growth
import PackageTriage.Proofs.Tree.Rescaling
import PackageTriage.Proofs.Tree.Sampling
import PackageTriage.Proofs.Tree.Separation
import PackageTriage.Proofs.Tree.Sweeps
import PackageTriage.Proofs.Tree.RescaledFits
import PackageTriage.Proofs.Scaling.Rescaling
import PackageTriage.Proofs.Validation.AnyScale
import PackageTriage.Proofs.Tree.SeparatedFits
import PackageTriage.Proofs.Scalar.Comparison
import PackageTriage.Proofs.Tree.Counting
import PackageTriage.Proofs.Tree.Boundaries
import PackageTriage.Proofs.Tree.Exhaustive
import PackageTriage.Proofs.Tree.RowOrder
import PackageTriage.Proofs.Tree.Routing
import PackageTriage.Proofs.Tree.Cutting
import PackageTriage.Proofs.Machine.Box
import PackageTriage.Proofs.Machine.Dual
import PackageTriage.Proofs.Network.Directions
import PackageTriage.Proofs.Network.Descent
import PackageTriage.Proofs.Scalar.Shares
import PackageTriage.Proofs.Classifier.Votes
import PackageTriage.Proofs.Text.Rows
import PackageTriage.Proofs.Csv.Rows
import PackageTriage.Proofs.Feature.Grammar
import PackageTriage.Proofs.Statistics.Moments
import PackageTriage.Proofs.Classifier.ClassStatistics
import PackageTriage.Proofs.Scalar.Signs
import PackageTriage.Proofs.Network.Packing
import PackageTriage.Proofs.Network.Accepted
import PackageTriage.Proofs.Network.InPlace
import PackageTriage.Proofs.Network.Patience
import PackageTriage.Proofs.Csv.LineCount
import PackageTriage.Proofs.Feature.Faults
import PackageTriage.Proofs.Feature.LineCount
import PackageTriage.Proofs.Statistics.Extremes
import PackageTriage.Proofs.Statistics.Sums
import PackageTriage.Proofs.Scalar.Checked
import PackageTriage.Proofs.Metrics.ScoreLaws
import PackageTriage.Proofs.Scaling.Checked
import PackageTriage.Proofs.Scaling.Normalising
import PackageTriage.Proofs.Grids.Order
import PackageTriage.Proofs.Validation.GridOrder
import PackageTriage.Proofs.Grids.Labels
import PackageTriage.Proofs.Tree.Impurity
import PackageTriage.Proofs.Tree.UselessSplits
import PackageTriage.Proofs.Network.Entries
import PackageTriage.Proofs.Network.Slopes
import PackageTriage.Proofs.Network.WalkBack
import PackageTriage.Proofs.Network.Chain
import PackageTriage.Proofs.Network.Backpropagation
import PackageTriage.Proofs.Network.PackingOrder
