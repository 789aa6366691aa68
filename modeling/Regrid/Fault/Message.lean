import Regrid.Position.Text
import Regrid.Weights.Corner

/-!
# The wording of faults

One function per kind of cause, and `Fault.message` over them.  Some faults are
told without a text: an index that names no entry, an argument of the wrong type,
and what cannot be done with arrays of such shapes at all.  Where a text would go on
with all the points of a grid or a stencil it ends in front of them.
-/
namespace Regrid

/-! ## The parts of a text -/

/-- A shape in parentheses; a single extent is followed by a comma. -/
def shapeText : List Nat → String
  | [] => "()"
  | [n] => "(" ++ toString n ++ ",)"
  | ns => "(" ++ String.intercalate ", " (ns.map toString) ++ ")"

/-- A shape in parentheses without blanks. -/
def tightShapeText : List Nat → String
  | [] => "()"
  | [n] => "(" ++ toString n ++ ",)"
  | ns => "(" ++ String.intercalate "," (ns.map toString) ++ ")"

/-- A number that is told with its type. -/
def typedRealText (x : Float) : String := "np.float64(" ++ realText x ++ ")"

/-- The names one can choose from. -/
def choicesText (names : List String) : String := String.intercalate ", " names

/-- The interpolation that was being set up. -/
def settingText (which : String) : String :=
  "Problem with the grids for the following interpolation: " ++ which ++ ".\n"

/-- What is said in front of both limits of a new grid. -/
def limitText (extreme : String) : String :=
  "The " ++ extreme ++ " of the new grid must be inside the original grid " ++
    "(a bit of extrapolation is allowed, but not so much).\n"

/-! ## The texts -/

/-- The text of a grid that cannot be used. -/
def GridFault.message : GridFault Float → String
  | notOneDimensional name shape =>
    name ++ " must be one-dimensional, got shape " ++ shapeText shape
  | tooShort least size =>
    "The original grid must have at least " ++ toString least ++ " elements, got " ++
      toString size ++ "."
  | notFinite => "The original grid contains non-finite values"
  | notSorted index point next =>
    "The original grid must be strictly sorted (no duplicate values). " ++
      "Order breaks between index " ++ toString index ++ " (" ++ typedRealText point ++ ") " ++
      "and index " ++ toString (index + 1) ++ " (" ++ typedRealText next ++ ")."
  | pressureNotPositive => "Pressure grids must be strictly positive."
  | axisNotPositive axis =>
    "Pressure grid of axis " ++ toString axis ++ " must be strictly positive."

/-- The text of what is out of range. -/
def RangeFault.message : RangeFault Float → String
  | outsideEnvelope value position low high extpolfac =>
    "Value " ++ realText value ++ " at position " ++ toString position ++
      " of the new grid is outside the allowed range [" ++ realText low ++ ", " ++
      realText high ++ "] of the original grid (extpolfac=" ++ realText extpolfac ++ ")."
  | pressureNotPositive value position =>
    "Pressure " ++ realText value ++ " at position " ++ toString position ++ " is not positive."
  | newGridNaN position => "The new grid contains NaN at index " ++ toString position ++ "."
  | newGridTooLow gridLeast allowed actual =>
    limitText "minimum" ++
      "Minimum of original grid:           " ++ realText gridLeast ++ "\n" ++
      "Minimum allowed value for new grid: " ++ realText allowed ++ "\n" ++
      "Actual minimum of new grid:         " ++ realText actual
  | newGridTooHigh gridGreatest allowed actual =>
    limitText "maximum" ++
      "Maximum of original grid:           " ++ realText gridGreatest ++ "\n" ++
      "Maximum allowed value for new grid: " ++ realText allowed ++ "\n" ++
      "Actual maximum of new grid:         " ++ realText actual
  | deviates fraction complement tolerance =>
    "Fractional distances (" ++ typedRealText fraction ++ ", " ++ typedRealText complement ++
      ") deviate from [0, 1] by more than " ++ realText tolerance ++ "."
  | notInUnit fraction => "Fractional distance " ++ realText fraction ++ " is outside [0, 1]."
  | belowFirst => "There is no grid range below the first grid point."
  | noBracket index last =>
    "Grid position index " ++ toString index ++ " is outside [0, " ++ toString last ++ "]."
  | onAxis axis cause => "Axis " ++ toString axis ++ ": " ++ cause.message
  | settingUp which cause => settingText which ++ cause.message

/-- The text of shapes that do not fit together. -/
def ShapeFault.message : ShapeFault → String
  | fractions count shape =>
    "fd must have shape (" ++ toString count ++ ", 2), got " ++ shapeText shape
  | noAxis => "At least one grid axis is needed."
  | noPosition => "At least one grid position is needed."
  | noPositionArray => "At least one grid position array is needed."
  | mixedPositions => "Cannot mix GridPos and ArrayOfGridPos arguments."
  | unequalLengths first axis length =>
    "Blue interpolation needs grid position arrays of equal length: axis 0 has " ++
      toString first ++ " positions, axis " ++ toString axis ++ " has " ++ toString length ++ "."
  | weightsContainer shape needed =>
    "Output container has shape " ++ shapeText shape ++ ", but the weights need " ++
      shapeText needed ++ "."
  | weightsElement type =>
    "Output container of type " ++ type.name ++ " cannot hold weights of type float64."
  | containerRank rank axes =>
    "An output container with " ++ toString rank ++
      " dimensions fits neither blue (2) nor green (" ++ toString (axes + 1) ++
      ") weights for " ++ toString axes ++ " axes."
  | valuesContainer shape needed =>
    "Output container has shape " ++ shapeText shape ++ ", but the interpolation gives " ++
      shapeText needed ++ "."
  | valuesElement type =>
    "Output container of type " ++ type.name ++
      " cannot hold interpolated values of type float64."
  | needlessContainer => "Red interpolation returns a scalar; no output container is used."
  | fieldRank rank axes =>
    "Field has " ++ toString rank ++ " dimensions, but grid positions were given for " ++
      toString axes ++ " axes."
  | outsideField axis first last size =>
    "Grid positions of axis " ++ toString axis ++ " address indices " ++ toString first ++ ".." ++
      toString last ++ ", but the field has only " ++ toString size ++
      " points along that axis."
  | redWeights axes shape =>
    "Red interpolation in " ++ toString axes ++ " dimensions needs " ++
      toString (Corner.count axes) ++ " weights, got shape " ++ shapeText shape ++ "."
  | blueWeights needed shape =>
    "Blue weights must have shape " ++ shapeText needed ++ ", got " ++ shapeText shape ++ "."
  | greenWeights needed shape =>
    "Green weights must have shape " ++ shapeText needed ++ ", got " ++ shapeText shape ++ "."
  | weightsRank rank axes =>
    "Weights with " ++ toString rank ++ " dimensions fit neither blue (2) nor green (" ++
      toString (axes + 1) ++ ") interpolation over " ++ toString axes ++ " axes."
  | tableLengths abscissas ordinates =>
    "polint needs xa and ya of equal, non-zero length, got " ++ toString abscissas ++ " and " ++
      toString ordinates ++ "."
  | tableShapes => "polint needs xa and ya of equal, non-zero length."
  | stencilPoints stencil points =>
    "Stencil '" ++ stencil.name ++ "' needs at least " ++ toString stencil.size ++
      " grid points, got " ++ toString points ++ "."
  | pointsAndValues points values =>
    "x and y must have the same length, got " ++ toString points ++ " and " ++
      toString values ++ "."
  | noGrid => "At least one grid is needed."
  | fieldGrids rank grids =>
    "Field has " ++ toString rank ++ " dimensions, but " ++ toString grids ++
      " grids were given."
  | gridPoints axis points extent =>
    "Grid " ++ toString axis ++ " has " ++ toString points ++ " points, but the field has " ++
      toString extent ++ " along axis " ++ toString axis ++ "."
  | queryRank axis => "Query values of axis " ++ toString axis ++ " must be one-dimensional."
  | noSuchAxis axis axes =>
    "Axis " ++ toString axis ++ " does not exist; the field has " ++ toString axes ++ " axes."
  | argumentCount axes given =>
    "Expected one argument per axis (" ++ toString axes ++ "), got " ++ toString given ++ "."
  | notOneAxis => "Polynomial interpolation is only available for one-dimensional fields."

/-- The text of an argument that makes no sense. -/
def ArgumentFault.message : ArgumentFault Float → Option String
  | negativeExtrapolation => some "extpolfac must be >= 0"
  | extrapolationNotFinite => some "extpolfac must be finite"
  | unknownTieBreak =>
    some ("tie_break must be one of: " ++ choicesText (TieBreak.all.map TieBreak.name))
  | unknownStencil =>
    some ("stencil must be one of: " ++ choicesText (Stencil.all.map Stencil.name))
  | unknownPolyStencil =>
    some ("poly_stencil must be one of: " ++ choicesText (Stencil.all.map Stencil.name))
  | unknownMode => some "mode must be one of: auto, blue, green"
  | modeNeeded =>
    some ("mode must be 'blue' or 'green' for arrays of grid positions " ++
      "on more than one axis")
  | unknownBackendChoice =>
    some ("backend must be one of: " ++ choicesText (BackendChoice.all.map BackendChoice.name))
  | unknownBackend name => some ("Unknown backend: " ++ name)
  | tolerance given => some ("fd_tol must be finite and > 0, got " ++ realText given)
  | toleranceSetting => some "fd_tol must be finite and > 0"
  | sumTolerance given =>
    some ("sum_check_epsilon must be finite and > 0, got " ++ realText given)
  | sumToleranceSetting => some "sum_check_epsilon must be finite and > 0"
  | logAxisNumber => some "log_pressure_axes must contain non-negative integers"
  | logAxisTwice => some "log_pressure_axes must not contain duplicates"
  | logAxisBeyond axis asReal axes =>
    let number := if asReal then realText (Float.ofInt axis) else toString axis
    some ("log_pressure_axes names axis " ++ number ++ ", but there are " ++ toString axes ++
      " axes.")
  | nanInteger => some "cannot convert float NaN to integer"
  | stepZero => some "slice step cannot be zero"
  | unstackable => none
  | noPoints => some "points must be >= 1"
  | tooFewGridPoints => some "grid_points must be >= 2"
  | noRank => some "ranks must be >= 1"
  | negativeSeed => none
  | fieldTooLarge => none
  | blocksCompared empty =>
    if empty then
      some ("The truth value of an empty array is ambiguous. " ++
        "Use `array.size > 0` to check that an array is not empty.")
    else
      some ("The truth value of an array with more than one element is ambiguous. " ++
        "Use a.any() or a.all()")
  | blockForEntry => some "setting an array element with a sequence."
  | noNeighbours => none
  | nothingClosest => none
  | shapesApart first second =>
    some ("operands could not be broadcast together with shapes " ++ tightShapeText first ++
      " " ++ tightShapeText second ++ " ")
  | bufferRank rank =>
    some ("Buffer has wrong number of dimensions (expected 1, got " ++ toString rank ++ ")")

/-- The text of an integer that is too large. -/
def OverflowFault.message : OverflowFault → String
  | infinity => "cannot convert float infinity to integer"
  | indexWord => "Python int too large to convert to C long"

/-- **The text of a fault**, if it has one. -/
def Fault.message : Fault Float → Option String
  | malformedGrid which cause =>
    some ((which.map settingText).getD "" ++ cause.message)
  | outOfRange cause => some cause.message
  | dimensionMismatch cause => some cause.message
  | invalidWeights total tolerance =>
    some ("Interpolation weights sum to " ++ realText total ++ " instead of 1 (tolerance " ++
      realText tolerance ++ "). Were the weights computed for these grid positions, " ++
      "in this axis order?")
  | singularStencil first x second y =>
    some ("Stencil abscissas " ++ typedRealText x ++ " (index " ++ toString first ++ ") and " ++
      typedRealText y ++ " (index " ++ toString second ++ ") coincide.")
  | singularTable => some "Two stencil abscissas coincide"
  | invalidArgument cause => cause.message
  | wrongType _ => none
  | notCompiled => none
  | unavailable =>
    some "Cython backend unavailable: atmointerp._cykernels extension is not built"
  | @overflow _ cause => some cause.message
  | zeroDivision => some "float division by zero"
  | badIndex => none

end Regrid
