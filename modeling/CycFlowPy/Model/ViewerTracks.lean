/-
Module: CycFlowPy.Model.ViewerTracks
Purpose: How the viewer expands a record schema into tracks, and takes the
  values of one track from a batch of records.
Trusted boundary: numpy's indexing, shift and casts follow its documentation;
  a bit position fits the type of the word it is applied to
Main exports: BitAttr, BitRule, numericTypes, integerTypes, dtypeMap,
  ChannelSpec, buildChannelSpecs, NdArray, extract, NumpyStore, TrackPart,
  BitAttr.tracks, ChannelSpec.Shows
-/
import CycFlowPy.Model.NumpyBridge

namespace CycFlowPy.Viewer

open Numpy Slices

/-! ### Specs

The viewer decides with tables of its own which attributes it shows and with
what type.

[SRC examples/tcp_viewer.py:38-64]
[SRC examples/tcp_viewer.py:88-143]
-/

/-- An attribute with its bit fields: what `has_bit_fields()` answers, and the
`bit_ids` by position, 0 for a bit without a name. -/
structure BitAttr extends PAttr where
  hasBitFields : Bool
  bitIds : List Nat
deriving Repr, DecidableEq

/-- A rule whose attributes come with their bit fields. -/
structure BitRule where
  attributes : List BitAttr
  recSize : Nat
deriving Repr, DecidableEq

def BitRule.layout (rule : BitRule) : RecRule where
  attributes := rule.attributes.map (·.toPAttr)
  recSize := rule.recSize

/-- `_NUMERIC_TYPES`. -/
def numericTypes : List DataType :=
  [.dtInt8, .dtUInt8, .dtInt16, .dtUInt16, .dtInt32, .dtUInt32, .dtInt64,
    .dtUInt64, .dtFloat, .dtDouble]

/-- `_INTEGER_TYPES`. -/
def integerTypes : List DataType :=
  [.dtInt8, .dtUInt8, .dtInt16, .dtUInt16, .dtInt32, .dtUInt32, .dtInt64,
    .dtUInt64]

/-- `np.dtype(_DTYPE_MAP[t])`; `none` stands for the `KeyError`. -/
def dtypeMap : DataType → Option NumpyFormat
  | .dtInt8 => some .i1
  | .dtUInt8 => some .u1
  | .dtInt16 => some .i2
  | .dtUInt16 => some .u2
  | .dtInt32 => some .i4
  | .dtUInt32 => some .u4
  | .dtInt64 => some .i8
  | .dtUInt64 => some .u8
  | .dtFloat => some .f4
  | .dtDouble => some .f8
  | _ => none

structure ChannelSpec where
  displayName : String
  fieldName : String
  dtype : NumpyFormat
  index : Option Nat := none
  bitPos : Option Nat := none
  isDigital : Bool := false
deriving Repr, DecidableEq

section Build

-- `cycflow.PReg.get_name`, `none` where it raises
variable (getName : Nat → Option String)

def elementSpecs (attr : BitAttr) (dtype : NumpyFormat) : List ChannelSpec :=
  (List.range attr.count).map fun i =>
    { displayName := attr.name ++ "[" ++ toString i ++ "]"
      fieldName := attr.name
      dtype := dtype
      index := some i }

def wordSpec (attr : BitAttr) (dtype : NumpyFormat) : ChannelSpec where
  displayName := attr.name
  fieldName := attr.name
  dtype := dtype

/-- `for pos, bid in enumerate(attr.bit_ids)`. -/
def bitSpecs (attr : BitAttr) : Nat → List Nat → List ChannelSpec
  | _, [] => []
  | pos, bid :: bids =>
      if bid = 0 then bitSpecs attr (pos + 1) bids
      else
        { displayName :=
            (getName bid).getD (attr.name ++ ".bit" ++ toString pos)
          fieldName := attr.name
          dtype := .u1
          bitPos := some pos
          isDigital := true } :: bitSpecs attr (pos + 1) bids

/-- The loop over the attributes. -/
def specsFrom : List BitAttr → List ChannelSpec → Option (List ChannelSpec)
  | [], specs => some specs
  | attr :: attrs, specs =>
      if attr.type ∉ numericTypes then specsFrom attrs specs
      else do
        let dtype ← dtypeMap attr.type
        if 1 < attr.count then
          specsFrom attrs (specs ++ elementSpecs attr dtype)
        else if attr.hasBitFields ∧ attr.type ∈ integerTypes then
          specsFrom attrs (specs ++ wordSpec attr dtype ::
            bitSpecs getName attr 0 attr.bitIds)
        else specsFrom attrs (specs ++ [wordSpec attr dtype])

def buildChannelSpecs (rule : BitRule) : Option (List ChannelSpec) :=
  specsFrom getName rule.attributes []

end Build

/-! ### Columns

[SRC examples/tcp_viewer.py:146-152]
-/

/-- An array of scalars of one format with one or two dimensions, each scalar
as its bytes. -/
inductive NdArray where
  | column (format : NumpyFormat) (values : List (List UInt8))
  | table (format : NumpyFormat) (width : Nat)
      (rows : List (List (List UInt8)))
deriving Repr, DecidableEq

/-- `batch[name]`: a column for a scalar field, and one row of elements for
every record for a subarray. -/
def fieldArray (batch : StructuredArray) (name : String) : Option NdArray := do
  let field ← batch.dtype.field? name
  match field.subarray with
  | none =>
      some (.column field.format (batch.records.map fun record =>
        slice record field.offset field.format.itemSize))
  | some width =>
      some (.table field.format width (batch.records.map fun record =>
        (List.range width).map fun element =>
          slice record (field.offset + element * field.format.itemSize)
            field.format.itemSize))

/-- `col[:, index]`, which needs a second dimension. -/
def NdArray.atIndex (index : Nat) : NdArray → Option NdArray
  | .column _ _ => none
  | .table format width rows =>
      if index < width then
        some (.column format (rows.map fun row => row.getD index []))
      else none

/-- Whether the words of an integer format are signed. -/
def signed? : NumpyFormat → Option Bool
  | .i1 | .i2 | .i4 | .i8 => some true
  | .u1 | .u2 | .u4 | .u8 => some false
  | _ => none

/-- The number that the bytes of a word stand for as an unsigned one. -/
def littleEndian : List UInt8 → Nat
  | [] => 0
  | byte :: bytes => byte.toNat + 256 * littleEndian bytes

/-- `((word >> pos) & 1).astype(np.uint8)` for one word; the shift of a signed
word repeats its sign. -/
def shiftAndOne (signed : Bool) (width pos : Nat) (bytes : List UInt8) :
    List UInt8 :=
  let word := BitVec.ofNat width (littleEndian bytes)
  let shifted := if signed then word.sshiftRight pos else word >>> pos
  [UInt8.ofNat (shifted &&& BitVec.ofNat width 1).toNat]

/-- `((col >> pos) & 1).astype(np.uint8)` for words of an integer type; it
raises for floating ones. -/
def NdArray.bit (pos : Nat) : NdArray → Option NdArray
  | .column format values => do
      let signed ← signed? format
      return .column .u1
        (values.map (shiftAndOne signed (8 * format.itemSize) pos))
  | .table format width rows => do
      let signed ← signed? format
      return .table .u1 width (rows.map fun row =>
        row.map (shiftAndOne signed (8 * format.itemSize) pos))

/-- `_extract`; `none` stands for an exception. -/
def extract (batch : StructuredArray) (spec : ChannelSpec) :
    Option NdArray := do
  let col ← fieldArray batch spec.fieldName
  let col ←
    match spec.index with
    | some index => col.atIndex index
    | none => some col
  match spec.bitPos with
  | some pos => col.bit pos
  | none => some col

/-- numpy's cast of a scalar that is stored in an array of another format; it
does nothing when the formats are the same. -/
structure NumpyStore where
  cast : NumpyFormat → NumpyFormat → List UInt8 → List UInt8
  same : ∀ format value, cast format format value = value

/-- The values that a channel's buffer of format `dtype` receives when an
array is assigned to a part of it; the shapes agree for a column only. -/
def NumpyStore.stored (numpy : NumpyStore) (dtype : NumpyFormat) :
    NdArray → Option (List (List UInt8))
  | .column format values => some (values.map (numpy.cast format dtype))
  | .table .. => none

/-! ### What the tracks stand for -/

def isInteger : DataType → Bool
  | .dtInt8 | .dtInt16 | .dtInt32 | .dtInt64
  | .dtUInt8 | .dtUInt16 | .dtUInt32 | .dtUInt64 => true
  | _ => false

def isFloating : DataType → Bool
  | .dtFloat | .dtDouble => true
  | _ => false

/-- A part of an attribute: the whole of a scalar, an element of an array, or
a bit of a word. -/
inductive TrackPart where
  | whole
  | element (i : Nat)
  | bit (pos : Nat)
deriving Repr, DecidableEq

/-- The positions of the bits that have a name. -/
def BitAttr.namedBits (attr : BitAttr) : List Nat :=
  (List.range attr.bitIds.length).filter fun pos =>
    attr.bitIds[pos]? ≠ some 0

/-- The parts of an attribute that get a track of their own. -/
def BitAttr.parts (attr : BitAttr) : List TrackPart :=
  if isInteger attr.type ∨ isFloating attr.type then
    if 1 < attr.count then (List.range attr.count).map .element
    else if isInteger attr.type ∧ attr.hasBitFields then
      .whole :: attr.namedBits.map .bit
    else [.whole]
  else []

/-- The tracks of an attribute: its name and the part. -/
def BitAttr.tracks (attr : BitAttr) : List (String × TrackPart) :=
  attr.parts.map fun part => (attr.name, part)

/-- The part that a spec names. -/
def ChannelSpec.part (spec : ChannelSpec) : TrackPart :=
  match spec.index, spec.bitPos with
  | some i, _ => .element i
  | none, some pos => .bit pos
  | none, none => .whole

/-- `value` is what the spec names in record `row` of the batch: the scalar,
the element, or the bit of the word as one byte when the word has it. -/
def ChannelSpec.Shows (batch : StructuredArray) (spec : ChannelSpec)
    (row : Nat) (value : List UInt8) : Prop :=
  match spec.part with
  | .whole => batch.read row spec.fieldName 0 = some value
  | .element i => batch.read row spec.fieldName i = some value
  | .bit pos => ∃ field word, batch.dtype.field? spec.fieldName = some field ∧
      batch.read row spec.fieldName 0 = some word ∧
      (pos < 8 * field.format.itemSize →
        value = [((littleEndian word).testBit pos).toUInt8])

end CycFlowPy.Viewer
