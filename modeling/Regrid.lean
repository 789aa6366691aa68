import Regrid.Chain
import Regrid.Interpolator.Session
import Regrid.Main
import Regrid.Position.Text
import Regrid.Proofs.Addresses
import Regrid.Proofs.Arrays
import Regrid.Proofs.Clamping
import Regrid.Proofs.Columns
import Regrid.Proofs.Doubles
import Regrid.Proofs.Exact
import Regrid.Proofs.Extended
import Regrid.Proofs.Flips
import Regrid.Proofs.Grid.Acceptance
import Regrid.Proofs.Grid.Admission
import Regrid.Proofs.Interpolator.Agreement
import Regrid.Proofs.Interpolator.Answered
import Regrid.Proofs.Interpolator.Attribution
import Regrid.Proofs.Interpolator.Backends
import Regrid.Proofs.Interpolator.Calls
import Regrid.Proofs.Interpolator.Clamped
import Regrid.Proofs.Interpolator.Faults
import Regrid.Proofs.Interpolator.GridPoints
import Regrid.Proofs.Interpolator.Independence
import Regrid.Proofs.Interpolator.Interpolation
import Regrid.Proofs.Interpolator.Made
import Regrid.Proofs.Interpolator.Mirrored
import Regrid.Proofs.Interpolator.Overshoot
import Regrid.Proofs.Interpolator.Permuted
import Regrid.Proofs.Interpolator.Placing
import Regrid.Proofs.Interpolator.Pointwise
import Regrid.Proofs.Interpolator.Polynomials
import Regrid.Proofs.Interpolator.Pressures
import Regrid.Proofs.Interpolator.Refined
import Regrid.Proofs.Interpolator.Regridded
import Regrid.Proofs.Interpolator.Reproduction
import Regrid.Proofs.Interpolator.Runs
import Regrid.Proofs.Interpolator.Stepwise
import Regrid.Proofs.Kinds
import Regrid.Proofs.Locate.Admission
import Regrid.Proofs.Locate.Clipped
import Regrid.Proofs.Locate.Estimate
import Regrid.Proofs.Locate.Fits
import Regrid.Proofs.Locate.Fractional
import Regrid.Proofs.Locate.History
import Regrid.Proofs.Locate.Located
import Regrid.Proofs.Locate.Mirror
import Regrid.Proofs.Locate.Nearest
import Regrid.Proofs.Locate.Ranges
import Regrid.Proofs.Locate.Refinement
import Regrid.Proofs.Locate.Refusals
import Regrid.Proofs.Locate.Ties
import Regrid.Proofs.Locate.Turns
import Regrid.Proofs.Locate.Units
import Regrid.Proofs.Locate.Walk
import Regrid.Proofs.Outcome
import Regrid.Proofs.Polynomial.Lagrange
import Regrid.Proofs.Polynomial.Paths
import Regrid.Proofs.Polynomial.Stencils
import Regrid.Proofs.Polynomial.Tableau
import Regrid.Proofs.Polynomial.Windows
import Regrid.Proofs.Sample.Averages
import Regrid.Proofs.Sample.Cells
import Regrid.Proofs.Sample.Checks
import Regrid.Proofs.Sample.Layouts
import Regrid.Proofs.Sample.Multilinear
import Regrid.Proofs.Sample.Protocols
import Regrid.Proofs.Sample.Reads
import Regrid.Proofs.Sample.Refinement
import Regrid.Proofs.Sample.Samplers
import Regrid.Proofs.Selections
import Regrid.Proofs.Slices
import Regrid.Proofs.Transposed
import Regrid.Proofs.Weights.Corners
