import CircuitBench.Value.Display

/-!
# What can go wrong

Every failure of the library is a cause, not a text: a constructor that says what was wrong and
carries the data that the report needs.  The wording is in the `message` functions alone.

The causes fall into families, and callers treat a family alike: malformed files (`FormatFault`),
failures of a build or a check (`CircuitFault`), refusals of the file system (`DiskFault`), values
of the right kind that cannot be used (`ValueFault`), values of a wrong kind (`TypeFault`), and a
few single causes.
-/

namespace CircuitBench

open Number Text

/-! ## Malformed files -/

/-- A read of `size` bytes at `offset` that a buffer of `length` bytes cannot serve. -/
structure ShortRead where
  size : Nat
  offset : Nat
  length : Nat
deriving DecidableEq, Repr

/-- The report of a read past the end. -/
def ShortRead.message (r : ShortRead) : String :=
  "unpack_from requires a buffer of at least " ++ toString (r.offset + r.size) ++
    " bytes for unpacking " ++ toString r.size ++ " bytes at offset " ++ toString r.offset ++
    " (actual buffer size is " ++ toString r.length ++ ")"

/-- The report of a bad integer literal.  The literal is given as it is quoted. -/
def literalMessage (fault : LiteralFault) (quotedLiteral : String) : String :=
  match fault with
  | .malformed base =>
    "invalid literal for int() with base " ++ toString base ++ ": " ++ shown quotedLiteral
  | .tooManyDigits count =>
    "Exceeds the limit (" ++ toString digitLimit ++ " digits) for integer string conversion: value has " ++
      toString count ++ " digits; use sys.set_int_max_str_digits() to increase the limit"

/-- What is malformed in a binary container, a constraint file, a witness file or a symbol file. -/
inductive FormatFault
  | notContainer (file magic : String)
  | sectionHeader (file : String) (offset : Nat)
  | sectionOverrun (file : String) (kind : Nat)
  | sectionMissing (file : String) (kind : Int)
  | elementSize (size : Int)
  | elementsShort (count size : Int)
  | constraintsShort (read : ShortRead)
  | constraintsAtEnd (size : Nat)
  | constraintsBefore (offset : Int) (length : Nat)
  | symbolFields (file : String) (line found : Nat)
  | symbolNumber (file : String) (line : Nat) (fault : LiteralFault) (quotedLiteral : String)
  | reported (text : String)
deriving DecidableEq, Repr

/-- The report of a malformed file. -/
def FormatFault.message : FormatFault → String
  | notContainer file magic => file ++ ": not a " ++ magic ++ " file"
  | sectionHeader file offset => file ++ ": truncated section header at offset " ++ toString offset
  | sectionOverrun file kind => file ++ ": section " ++ toString kind ++ " overruns file"
  | sectionMissing file kind => file ++ ": missing section " ++ toString kind
  | elementSize size => "unsupported field element size " ++ toString size
  | elementsShort count size =>
    "expected " ++ toString count ++ " field elements of " ++ toString size ++ " bytes, buffer too short"
  | constraintsShort read => truncated ++ read.message
  | constraintsAtEnd size => truncated ++ "not enough data to unpack " ++ toString size ++ " bytes"
  | constraintsBefore offset length =>
    truncated ++ "offset " ++ toString offset ++ " out of range for " ++ toString length ++ "-byte buffer"
  | symbolFields file line found =>
    file ++ ":" ++ toString line ++ ": expected 4 fields, got " ++ toString found
  | symbolNumber file line fault literal =>
    file ++ ":" ++ toString line ++ ": " ++ literalMessage fault literal
  | reported text => text
where
  /-- The words for constraints that end too early. -/
  truncated : String := "truncated constraints section: "

/-! ## Failures of a build or a check -/

/-- Why inputs give no witness. -/
inductive WitnessFault
  | unknownInputs (names : List String)
  | inputsNotSet (names : List String)
  | generation (circuit : String) (exitCode : Int)
  | wrongLength (values wires : Nat)
deriving DecidableEq, Repr

/-- The report of a witness with another number of values than its circuit has wires. -/
def lengthMessage (values wires : Nat) : String :=
  "witness has " ++ toString values ++ " values, circuit has " ++ toString wires ++ " wires"

/-- The report of inputs that give no witness. -/
def WitnessFault.message : WitnessFault → String
  | unknownInputs names => "unknown or mis-sized input signals: " ++ ", ".intercalate names
  | inputsNotSet names => "input signals not set: " ++ ", ".intercalate names
  | generation circuit exitCode =>
    "witness generation failed for " ++ circuit ++ " (exit " ++ toString exitCode ++ ")"
  | wrongLength values wires => lengthMessage values wires

/-- Why a witness does not satisfy a constraint system. -/
inductive ConstraintFault
  | tooShort (values wires : Nat)
  | constantWire
  | violated (index terms : Nat) (wires : List String)
deriving DecidableEq, Repr

/-- The report of a witness that does not satisfy a constraint system. -/
def ConstraintFault.message : ConstraintFault → String
  | tooShort values wires => lengthMessage values wires
  | constantWire => "witness[0] must be 1"
  | violated index terms wires =>
    "constraint " ++ toString index ++ " doesn't match (" ++ toString terms ++ " terms over " ++
      ", ".intercalate wires ++ ")"

/-- The constraint that a witness is found to violate. -/
def ConstraintFault.index? : ConstraintFault → Option Nat
  | violated index _ _ => some index
  | _ => none

/-- The families of failures that the tools or the checks of a circuit report. -/
inductive CircuitFamily
  | general
  | toolNotFound
  | compilation
  | witness
  | constraint
deriving DecidableEq, Repr

/-- A failure that the tools or the checks of a circuit report.  One that is only stated belongs to
a family, and has a text and details given to it. -/
inductive CircuitFault
  | toolNotFound (what how : String)
  | compilation (path : String) (returnCode : Int) (diagnostics : String)
  | witness (fault : WitnessFault) (diagnostics : Option String)
  | constraint (fault : ConstraintFault)
  | stated (family : CircuitFamily) (text : String) (details : List (String × Value))
deriving Repr

/-- The family of a failure. -/
def CircuitFault.family : CircuitFault → CircuitFamily
  | toolNotFound _ _ => .toolNotFound
  | compilation _ _ _ => .compilation
  | witness _ _ => .witness
  | constraint _ => .constraint
  | stated family _ _ => family

/-- What is known of a failure next to its text, by name. -/
def CircuitFault.details : CircuitFault → List (String × Value)
  | toolNotFound what how => [("what", .text what), ("how", .text how)]
  | compilation path returnCode diagnostics =>
    [("path", .text path), ("returncode", .int returnCode), ("stderr", .text diagnostics)]
  | witness _ diagnostics => [("stderr", (diagnostics.map Value.text).getD .null)]
  | constraint fault => [("index", (fault.index?.map fun n : Nat => Value.int n).getD .null)]
  | stated _ _ details => details

/-- A report followed by what the tool said, if it said anything, on a line of its own. -/
def withDiagnostics (text diagnostics : String) : String :=
  if diagnostics.isEmpty then text else text ++ ":\n" ++ trimString diagnostics

/-- The report of a failed build or check. -/
def CircuitFault.message : CircuitFault → String
  | toolNotFound what how => "tool not found: " ++ what ++ " (" ++ how ++ ")"
  | compilation path returnCode diagnostics =>
    withDiagnostics ("circom failed on " ++ path ++ " (exit " ++ toString returnCode ++ ")") diagnostics
  | witness fault diagnostics => withDiagnostics fault.message (diagnostics.getD "")
  | constraint fault => fault.message
  | stated _ text _ => text

/-! ## Refusals of the file system -/

/-- Why the file system refuses an operation. -/
inductive DiskFault
  | missing
  | exists
  | notDirectory
  | isDirectory
  | notEmpty
  | nameTooLong
  | busy
  | argumentTooLong
  | nullInPath
  | unencodable
  | tooDeep
deriving DecidableEq, Repr

/-! ## Unusable values -/

/-- A value of a fitting kind that cannot be used. -/
inductive ValueFault
  | literal (fault : LiteralFault) (quotedLiteral : String)
  | fractional (shownValue : String)
  | undefinedNumber
  | digitsToPrint
  | offsetOutside (length : Nat)
  | brokenWord
  | unevenShape (words : Nat) (shape : String)
  | twoOpenNumbers
  | pairLength (index length : Nat)
  | ambiguousTruth (empty : Bool)
  | tooManyCells
  | tooLongDimension
  | unknownLevel (quotedName : String)
deriving DecidableEq, Repr

/-- The report of an unusable value. -/
def ValueFault.message : ValueFault → String
  | literal fault quotedLiteral => literalMessage fault quotedLiteral
  | fractional shownValue => "signal value " ++ shownValue ++ " is not an integer"
  | undefinedNumber => "cannot convert float NaN to integer"
  | digitsToPrint =>
    "Exceeds the limit (" ++ toString digitLimit ++
      " digits) for integer string conversion; use sys.set_int_max_str_digits() to increase the limit"
  | offsetOutside length =>
    "offset must be non-negative and no greater than buffer length (" ++ toString length ++ ")"
  | brokenWord => "buffer size must be a multiple of element size"
  | unevenShape words shape =>
    "cannot reshape array of size " ++ toString words ++ " into shape " ++ shape
  | twoOpenNumbers => "can only specify one unknown dimension"
  | pairLength index length =>
    "dictionary update sequence element #" ++ toString index ++ " has length " ++ toString length ++
      "; 2 is required"
  | ambiguousTruth empty =>
    if empty then
      "The truth value of an empty array is ambiguous. Use \x60array.size > 0\x60 to check that an array is not empty."
    else
      "The truth value of an array with more than one element is ambiguous. Use a.any() or a.all()"
  | tooManyCells =>
    "array is too big; \x60arr.size * arr.dtype.itemsize\x60 is larger than the maximum possible size."
  | tooLongDimension => "Maximum allowed dimension exceeded"
  | unknownLevel quotedName => "Unknown level: " ++ quotedName

/-- The two ways round in which an order is asked for. -/
inductive OrderSide
  | less
  | greater
deriving DecidableEq, Repr

/-- The sign of an order. -/
def OrderSide.sign : OrderSide → String
  | less => "<"
  | greater => ">"

/-- The name of an order among arrays. -/
def OrderSide.name : OrderSide → String
  | less => "less"
  | greater => "greater"

/-- A value of a kind that a use does not allow.  Kinds are given by name. -/
inductive TypeFault
  | notInteger (kind : String)
  | notIterable (kind : String)
  | noDimensions
  | manyDimensions
  | notJoinable
  | joinItem (index : Nat) (kind : String)
  | notParameter (kind : String)
  | notSerializable (kind : String)
  | keyKind (kind : String)
  | notOrdered (side : OrderSide) (left right : String)
  | cellsNotOrdered (side : OrderSide) (left right : String)
  | notPair (index : Nat)
  | unhashable (kind : String)
  | notConcatenable (first second : String)
  | notOperands (sign first second : String)
  | notFormatted (what : String)
  | notFactor (kind : String)
  | notIndexed (kind : String)
  | notAssignable (kind : String)
  | listIndexKind (kind : String)
  | unsized (kind : String)
  | unsizedArray
  | mixedBytes
  | notPath (kind : String)
  | bytesStart
  | notJson (kind : String)
  | levelKind (quotedLevel : String)
  | loggerName
  | argumentsMissing (maker : String) (names : List String)
  | argumentsOver (maker : String) (least most given : Nat)
deriving DecidableEq, Repr

/-- The report of a value of a wrong kind. -/
def TypeFault.message : TypeFault → String
  | notInteger kind =>
    "int() argument must be a string, a bytes-like object or a real number, not '" ++ kind ++ "'"
  | notIterable kind => "'" ++ kind ++ "' object is not iterable"
  | noDimensions => "iteration over a 0-d array"
  | manyDimensions => "only 0-dimensional arrays can be converted to Python scalars"
  | notJoinable => "can only join an iterable"
  | joinItem index kind =>
    "sequence item " ++ toString index ++ ": expected str instance, " ++ kind ++ " found"
  | notParameter kind => "Object of type " ++ kind ++ " is not a circom parameter"
  | notSerializable kind => "Object of type " ++ kind ++ " is not JSON serializable"
  | keyKind kind => "keys must be str, int, float, bool or None, not " ++ kind
  | notOrdered side left right =>
    "'" ++ side.sign ++ "' not supported between instances of '" ++ left ++ "' and '" ++ right ++ "'"
  | cellsNotOrdered side left right =>
    "ufunc '" ++ side.name ++ "' did not contain a loop with signature matching types (<class 'numpy.dtypes." ++
      left ++ "'>, <class 'numpy.dtypes." ++ right ++ "'>) -> None"
  | notPair index =>
    "cannot convert dictionary update sequence element #" ++ toString index ++ " to a sequence"
  | unhashable kind => "unhashable type: '" ++ kind ++ "'"
  | notConcatenable first second =>
    "can only concatenate " ++ first ++ " (not \"" ++ second ++ "\") to " ++ first
  | notOperands sign first second =>
    "unsupported operand type(s) for " ++ sign ++ ": '" ++ first ++ "' and '" ++ second ++ "'"
  | notFormatted what => "not all arguments converted during " ++ what ++ " formatting"
  | notFactor kind => "can't multiply sequence by non-int of type '" ++ kind ++ "'"
  | notIndexed kind => "'" ++ kind ++ "' object is not subscriptable"
  | notAssignable kind => "'" ++ kind ++ "' object does not support item assignment"
  | listIndexKind kind => "list indices must be integers or slices, not " ++ kind
  | unsized kind => "object of type '" ++ kind ++ "' has no len()"
  | unsizedArray => "len() of unsized object"
  | mixedBytes => "Can't mix bytes and non-bytes in path components."
  | notPath kind => "expected str, bytes or os.PathLike object, not " ++ kind
  | bytesStart => "startswith first arg must be bytes or a tuple of bytes, not str"
  | notJson kind => "the JSON object must be str, bytes or bytearray, not " ++ kind
  | levelKind quotedLevel => "Level not an integer or a valid string: " ++ quotedLevel
  | loggerName => "A logger name must be a string"
  | argumentsMissing maker names =>
    maker ++ ".__init__() missing " ++ toString names.length ++ " required positional argument" ++
      (if names.length = 1 then "" else "s") ++ ": " ++
      " and ".intercalate (names.map fun name => "'" ++ name ++ "'")
  | argumentsOver maker least most given =>
    maker ++ ".__init__() takes " ++
      (if least = most then toString most else "from " ++ toString least ++ " to " ++ toString most) ++
      " positional arguments but " ++ toString given ++ " were given"

/-! ## Unmet expectations -/

/-- How a witness differs from what was expected of it. -/
inductive ExpectationFault
  | notInWitness (signal : String)
  | differs (signal : String) (expected got : Int)
  | differsFrom (signal : String) (expected : Int) (got : String)
deriving DecidableEq, Repr

/-- The report of a witness that differs from what was expected of it. -/
def ExpectationFault.message : ExpectationFault → String
  | notInWitness signal => "signal " ++ signal ++ " not found in witness"
  | differs signal expected got =>
    signal ++ ": expected " ++ toString expected ++ ", got " ++ toString got
  | differsFrom signal expected got => signal ++ ": expected " ++ toString expected ++ ", got " ++ got

/-! ## Limits -/

/-- A number that is beyond what it is to be turned into. -/
inductive OverflowFault
  | infinite
  | integerToFloat
  | integerToSize
  | integerToIndex (kind : String)
  | integerToWord (signed : Bool)
  | integerToCell (n : Int) (kind : String)
deriving DecidableEq, Repr

/-- The report of a number beyond what it is to be turned into. -/
def OverflowFault.message : OverflowFault → String
  | infinite => "cannot convert float infinity to integer"
  | integerToFloat => "int too large to convert to float"
  | integerToSize => "Python int too large to convert to C ssize_t"
  | integerToIndex kind => "cannot fit '" ++ kind ++ "' into an index-sized integer"
  | integerToWord true => "Python int too large to convert to C long"
  | integerToWord false => "Python int too large to convert to C unsigned long"
  | integerToCell n kind => "Python integer " ++ toString n ++ " out of bounds for " ++ kind

/-- An index that a sequence has no member for. -/
inductive IndexFault
  | outOfRange (sequence : String)
  | beyondBytes
  | beyondArray (index : Int) (length : Nat)
  | beyondWord
  | noDimensions
  | scalarCell
deriving DecidableEq, Repr

/-- The report of an index that a sequence has no member for. -/
def IndexFault.message : IndexFault → String
  | outOfRange sequence => sequence ++ " index out of range"
  | beyondBytes => "index out of range"
  | beyondArray index length =>
    "index " ++ toString index ++ " is out of bounds for axis 0 with size " ++ toString length
  | beyondWord => "cannot fit 'int' into an index-sized integer"
  | noDimensions => "too many indices for array: array is 0-dimensional, but 1 were indexed"
  | scalarCell => "invalid index to scalar variable."

/-- What is nested too deep in a JSON text. -/
inductive DepthFault
  | array
  | object
deriving DecidableEq, Repr

/-- The words for a depth that is exceeded. -/
def depthExceeded : String := "maximum recursion depth exceeded"

/-- The report of a JSON text that is nested too deep. -/
def DepthFault.message : DepthFault → String
  | array => depthExceeded ++ " while decoding a JSON array from a unicode string"
  | object => depthExceeded ++ " while decoding a JSON object from a unicode string"

/-! ## All causes -/

/-- A failure of the library. -/
inductive Error
  | format (fault : FormatFault)
  | shortRead (read : ShortRead)
  | circuit (fault : CircuitFault)
  | value (fault : ValueFault)
  | type (fault : TypeFault)
  | disk (fault : DiskFault)
  | configMissing (path : String)
  | noAttribute (kind member : String)
  | missingKey (key : String)
  | index (fault : IndexFault)
  | moduloByZero
  | floatModuloByZero
  | overflow (fault : OverflowFault)
  | depth (fault : DepthFault)
  | expectation (fault : ExpectationFault)
  | notLoaded
  | undecodable
  | unencodable
  | malformedJson
  | collaborator (kind : String) (text : Option String)
deriving Repr

/-- The report of a failure.  Faults of an encoding have none, and neither have refusals of the file
system, but for a path that is not even handed to it. -/
def Error.message? : Error → Option String
  | format fault => some fault.message
  | shortRead read => some read.message
  | circuit fault => some fault.message
  | value fault => some fault.message
  | type fault => some fault.message
  | disk .nullInPath => some "embedded null byte"
  | disk .tooDeep => some (depthExceeded ++ " while calling a Python object")
  | disk _ => none
  | configMissing path => some ("Config file not found: " ++ path)
  | noAttribute kind member => some ("'" ++ kind ++ "' object has no attribute '" ++ member ++ "'")
  | missingKey key => some key
  | index fault => some fault.message
  | moduloByZero => some "integer modulo by zero"
  | floatModuloByZero => some "float modulo"
  | overflow fault => some fault.message
  | depth fault => some fault.message
  | expectation fault => some fault.message
  | notLoaded => some "constraints not loaded"
  | undecodable => none
  | unencodable => none
  | malformedJson => none
  | collaborator _ text => text

/-- Whether a failure says that a file is malformed. -/
def Error.isFormat : Error → Bool
  | format _ => true
  | _ => false

/-- Whether a failure is one that the tools or the checks of a circuit report. -/
def Error.isCircuit : Error → Bool
  | circuit _ => true
  | _ => false

end CircuitBench
