/-
Module: CycFlowPy.Model.NumpyBridge
Purpose: Record schemas, the numpy dtype built from one, and structured numpy
  arrays over record memory.
Trusted boundary: the type tables of CycLib; `np.dtype` and the indexing of
  structured arrays follow numpy's documentation
Main exports: DataType, numpyFormatFor, isDtypeMappable, PAttr, RecRule,
  RecRule.LaidOut, Dtype, dtypeFromRule, StructuredArray, viewStructured
-/
import CycFlowPy.Lib.Slices

namespace CycFlowPy.Numpy

open Slices

/-!
`numpy_bridge.cpp` turns a `RecRule` into a numpy structured dtype with the
rule's own offsets and record size, and record memory into a strided array.

[SRC src/numpy_bridge.cpp:9-94]
[SRC src/bind_core.cpp:24-46]
-/

inductive DataType where
  | dtUndefine
  | dtBool
  | dtChar
  | dtVoid
  | dtInt8
  | dtUInt8
  | dtInt16
  | dtUInt16
  | dtInt32
  | dtUInt32
  | dtInt64
  | dtUInt64
  | dtFloat
  | dtDouble
  | dtPtr
deriving Repr, DecidableEq

/-- The scalar formats in use. -/
inductive NumpyFormat where
  | bool
  | bytes1
  | i1
  | u1
  | i2
  | u2
  | i4
  | u4
  | i8
  | u8
  | f4
  | f8
deriving Repr, DecidableEq

/-- The format as numpy's array-protocol string. -/
def NumpyFormat.code : NumpyFormat → String
  | .bool => "?"
  | .bytes1 => "S1"
  | .i1 => "<i1"
  | .u1 => "<u1"
  | .i2 => "<i2"
  | .u2 => "<u2"
  | .i4 => "<i4"
  | .u4 => "<u4"
  | .i8 => "<i8"
  | .u8 => "<u8"
  | .f4 => "<f4"
  | .f8 => "<f8"

/-- The bytes numpy gives a scalar of the format. -/
def NumpyFormat.itemSize : NumpyFormat → Nat
  | .bool | .bytes1 | .i1 | .u1 => 1
  | .i2 | .u2 => 2
  | .i4 | .u4 | .f4 => 4
  | .i8 | .u8 | .f8 => 8

/-- The exceptions of the bridge: a C++ `std::runtime_error` with its text,
and numpy's `ValueError`. -/
inductive PyError where
  | runtimeError (text : String)
  | valueError
deriving Repr, DecidableEq

def numpyFormatFor (dataTypeToString : DataType → String) :
    DataType → Except PyError NumpyFormat
  | .dtBool => .ok .bool
  | .dtChar => .ok .bytes1
  | .dtInt8 => .ok .i1
  | .dtUInt8 => .ok .u1
  | .dtInt16 => .ok .i2
  | .dtUInt16 => .ok .u2
  | .dtInt32 => .ok .i4
  | .dtUInt32 => .ok .u4
  | .dtInt64 => .ok .i8
  | .dtUInt64 => .ok .u8
  | .dtFloat => .ok .f4
  | .dtDouble => .ok .f8
  | t => .error (.runtimeError
      ("numpy_format_for: unsupported DataType (" ++ dataTypeToString t ++
        ")"))

def isDtypeMappable : DataType → Bool
  | .dtBool | .dtChar
  | .dtInt8 | .dtUInt8
  | .dtInt16 | .dtUInt16
  | .dtInt32 | .dtUInt32
  | .dtInt64 | .dtUInt64
  | .dtFloat | .dtDouble => true
  | _ => false

/-- The type tables of CycLib.  `getTypeSize` gives every type that has a
numpy format the size of that format. -/
structure CycTypes where
  getTypeSize : DataType → Nat
  dataTypeToString : DataType → String
  sizeOfFormat : ∀ t format,
    numpyFormatFor dataTypeToString t = .ok format →
      getTypeSize t = format.itemSize

/-- The part of a `PAttr` that decides the layout of a record. -/
structure PAttr where
  name : String
  type : DataType
  count : Nat
  offset : Nat
deriving Repr, DecidableEq

/-- `PAttr::getSize`. -/
def PAttr.getSize (types : CycTypes) (attr : PAttr) : Nat :=
  types.getTypeSize attr.type * attr.count

structure RecRule where
  attributes : List PAttr
  recSize : Nat
deriving Repr, DecidableEq

/-- The attributes stand one right after the other from `start` on and end at
`finish` or before. -/
def Consecutive (types : CycTypes) : Nat → List PAttr → Nat → Prop
  | start, [], finish => start ≤ finish
  | start, attr :: attrs, finish =>
      attr.offset = start ∧
        Consecutive types (start + attr.getSize types) attrs finish

/-- The attributes of the rule have different names and stand at consecutive
offsets within the record. -/
structure RecRule.LaidOut (types : CycTypes) (rule : RecRule) : Prop where
  distinct : (rule.attributes.map (·.name)).Nodup
  consecutive : ∃ start, Consecutive types start rule.attributes rule.recSize

/-! ### Structured dtypes -/

/-- One field of a structured dtype; `subarray` is the length of a
one-dimensional subarray, and `none` for a scalar. -/
structure DtypeField where
  name : String
  format : NumpyFormat
  subarray : Option Nat
  offset : Nat
deriving Repr, DecidableEq

def DtypeField.count (field : DtypeField) : Nat :=
  field.subarray.getD 1

def DtypeField.size (field : DtypeField) : Nat :=
  field.format.itemSize * field.count

structure Dtype where
  fields : List DtypeField
  itemSize : Nat
deriving Repr, DecidableEq

/-- `np.dtype(spec)` refuses two fields of one name, and fields that reach
past the item. -/
def npDtype (fields : List DtypeField) (itemSize : Nat) :
    Except PyError Dtype :=
  if (fields.map (·.name)).Nodup ∧
      ∀ field ∈ fields, field.offset + field.size ≤ itemSize then
    .ok { fields := fields, itemSize := itemSize }
  else .error .valueError

/-- The name, format and offset that `dtype_from_rule` appends for an
attribute: a subarray when it has more than one element. -/
def PAttr.toField (attr : PAttr) (format : NumpyFormat) : DtypeField where
  name := attr.name
  format := format
  subarray := if 1 < attr.count then some attr.count else none
  offset := attr.offset

/-- The fields that the loop of `dtype_from_rule` collects. -/
def dtypeFields (types : CycTypes) :
    List PAttr → Except PyError (List DtypeField)
  | [] => .ok []
  | attr :: attrs =>
      if !isDtypeMappable attr.type then dtypeFields types attrs
      else do
        let format ← numpyFormatFor types.dataTypeToString attr.type
        let fields ← dtypeFields types attrs
        return attr.toField format :: fields

def dtypeFromRule (types : CycTypes) (rule : RecRule) :
    Except PyError Dtype := do
  let fields ← dtypeFields types rule.attributes
  npDtype fields rule.recSize

/-! ### Structured arrays -/

/-- A one-dimensional structured array over `data`. -/
structure StructuredArray where
  dtype : Dtype
  count : Nat
  stride : Nat
  data : List UInt8
deriving Repr, DecidableEq

def Dtype.field? (dtype : Dtype) (name : String) : Option DtypeField :=
  dtype.fields.find? fun field => field.name = name

/-- `record[name]` for a scalar field and `record[name][element]` for a
subarray, as the bytes of the value. -/
def Dtype.read (dtype : Dtype) (record : List UInt8) (name : String)
    (element : Nat) : Option (List UInt8) := do
  let field ← dtype.field? name
  if element < field.count then
    some (slice record (field.offset + element * field.format.itemSize)
      field.format.itemSize)
  else none

/-- `array[row]`, the bytes of one item. -/
def StructuredArray.record (array : StructuredArray) (row : Nat) :
    Option (List UInt8) :=
  if row < array.count then
    some (slice array.data (row * array.stride) array.dtype.itemSize)
  else none

/-- `array[name][row]` or `array[name][row, element]`. -/
def StructuredArray.read (array : StructuredArray) (row : Nat) (name : String)
    (element : Nat) : Option (List UInt8) := do
  let record ← array.record row
  array.dtype.read record name element

/-- All items of an array in order. -/
def StructuredArray.records (array : StructuredArray) : List (List UInt8) :=
  (List.range array.count).map fun row =>
    slice array.data (row * array.stride) array.dtype.itemSize

/-- One element assignment through a structured array: the row, the field,
the element of its subarray (0 for a scalar) and the bytes of the value. -/
structure Assignment where
  row : Nat
  field : String
  element : Nat
  value : List UInt8
deriving Repr, DecidableEq

/-- `array[field][row, element] = value` for a value of the field's width. -/
def StructuredArray.assign (array : StructuredArray) (a : Assignment) :
    Option StructuredArray := do
  let field ← array.dtype.field? a.field
  if a.row < array.count ∧ a.element < field.count ∧
      a.value.length = field.format.itemSize then
    some { array with
      data := patch array.data
        (a.row * array.stride + field.offset +
          a.element * field.format.itemSize)
        a.value }
  else none

/-- The array of `view_structured`: the dtype of the rule over record memory,
one record every `getRecSize()` bytes. -/
def viewStructured (types : CycTypes) (rule : RecRule) (data : List UInt8)
    (recordCount : Nat) : Except PyError StructuredArray := do
  let dtype ← dtypeFromRule types rule
  return {
    dtype := dtype
    count := recordCount
    stride := rule.recSize
    data := data }

/-- `np.empty(count, dtype)`; `memory` is whatever the allocator left there. -/
def npEmpty (memory : Nat → UInt8) (count : Nat) (dtype : Dtype) :
    StructuredArray where
  dtype := dtype
  count := count
  stride := dtype.itemSize
  data := (List.range (count * dtype.itemSize)).map memory

end CycFlowPy.Numpy
