/-
Module: CycFlowPy.Model.NamedRule
Purpose: `dtype_from_rule` and `name in rule` on the names as they are stored,
  in `char` arrays that the setter filled.
Trusted boundary: pybind11's `py::str` raises on bytes that are not valid
  UTF-8; comparing a `std::string` with a `char` array compares it with the
  bytes up to the first NUL
Main exports: NamedAttr, NamedRule, NamedRule.dtypeFromRule,
  NamedRule.contains, NamedRule.renamed, storedBytes
-/
import CycFlowPy.Model.NameField
import CycFlowPy.Model.NumpyBridge

namespace CycFlowPy.Names

open Utf8 Numpy

/-!
[SRC src/numpy_bridge.cpp:46-80]
[SRC src/bind_core.cpp:50-76]
[SRC src/bind_core.cpp:131-135]
-/

/-- An attribute with its name as it is stored. -/
structure NamedAttr extends Names.PAttr where
  type : DataType
  count : Nat
  offset : Nat

structure NamedRule where
  attributes : List NamedAttr
  recSize : Nat

/-- The attribute with its name as text. -/
def NamedAttr.withText (attr : NamedAttr) (text : String) : Numpy.PAttr where
  name := text
  type := attr.type
  count := attr.count
  offset := attr.offset

/-- The `UnicodeDecodeError` of `py::str(attr.name)`, and the exceptions of
the bridge. -/
inductive NamedError where
  | unicodeDecode
  | bridge (error : PyError)
deriving Repr, DecidableEq

/-- `py::str(attr.name)`. -/
def NamedAttr.pyStr (attr : NamedAttr) : Except NamedError String :=
  match attr.getName with
  | some text => .ok text
  | none => .error .unicodeDecode

/-- The fields that the loop of `dtype_from_rule` collects. -/
def namedFields (types : CycTypes) :
    List NamedAttr → Except NamedError (List DtypeField)
  | [] => .ok []
  | attr :: attrs =>
      if !isDtypeMappable attr.type then namedFields types attrs
      else do
        let text ← attr.pyStr
        let format ←
          (numpyFormatFor types.dataTypeToString attr.type).mapError .bridge
        let fields ← namedFields types attrs
        return (attr.withText text).toField format :: fields

def NamedRule.dtypeFromRule (types : CycTypes) (rule : NamedRule) :
    Except NamedError Dtype := do
  let fields ← namedFields types rule.attributes
  (npDtype fields rule.recSize).mapError .bridge

/-- `name in rule`. -/
def NamedRule.contains (rule : NamedRule) (n : String) : Bool :=
  rule.attributes.any fun attr => encode n.toList = cBytes attr.name.bytes

/-- The rule whose attributes were given these names. -/
def NamedRule.renamed (entries : List (NamedAttr × String)) (recSize : Nat) :
    NamedRule where
  attributes := entries.map fun entry =>
    { entry.1 with toPAttr := entry.1.toPAttr.setName entry.2 }
  recSize := recSize

/-- What is left of a name in its array: the bytes up to its first NUL, 25 at
most. -/
def storedBytes (n : String) : List UInt8 :=
  (encode (n.toList.takeWhile (· ≠ '\x00'))).take 25

end CycFlowPy.Names
