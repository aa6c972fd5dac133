/-
Module: CycFlowPy.Model.NameField
Purpose: The `name` properties of `PAttr` and `CbfSectionHeader`: Python text
  in a `char` array of fixed size.
Trusted boundary: pybind11 passes text as UTF-8 and raises when the way back is
  not valid UTF-8; `std::strncpy` follows the C standard
Main exports: CharArray, strncpy, CharArray.assign, CharArray.text, PAttr,
  CbfSectionHeader
-/
import CycFlowPy.Lib.Utf8

namespace CycFlowPy.Names

open Utf8

/-!
Both setters copy `sizeof(name) - 1` bytes at most and put a NUL into the last
byte; both getters make a `std::string` of the bytes up to the first NUL.

[SRC src/bind_core.cpp:50-76]
[SRC src/bind_cbf.cpp:43-54]
-/

/-- The bytes of a C string, up to its first NUL. -/
def cBytes (bytes : List UInt8) : List UInt8 :=
  bytes.takeWhile (· ≠ 0)

/-- The buffer behind `c_str()` of a text that came from Python. -/
def cStr (text : String) : List UInt8 :=
  encode text.toList ++ [0]

/-- `std::strncpy(dest, source, count)`: the C string `source`, cut after
`count` bytes or filled up with NULs. -/
def strncpy (dest source : List UInt8) (count : Nat) : List UInt8 :=
  let copied := (cBytes source).take count
  copied ++ List.replicate (count - copied.length) 0 ++ dest.drop count

/-- A `char name[size]`. -/
structure CharArray (size : Nat) where
  bytes : List UInt8
  sized : bytes.length = size
  positive : 0 < size

theorem length_strncpy {dest source : List UInt8} {count : Nat}
    (fits : count ≤ dest.length) :
    (strncpy dest source count).length = dest.length := by
  simp only [strncpy, List.length_append, List.length_replicate,
    List.length_drop, List.length_take]
  omega

theorem CharArray.length_strncpy {size : Nat} (array : CharArray size)
    (source : List UInt8) :
    (strncpy array.bytes source (size - 1)).length = size := by
  rw [Names.length_strncpy, array.sized]
  rw [array.sized]
  exact Nat.sub_le size 1

/-- The setter. -/
def CharArray.assign {size : Nat} (array : CharArray size) (text : String) :
    CharArray size where
  bytes := (strncpy array.bytes (cStr text) (size - 1)).set (size - 1) 0
  sized := by
    rw [List.length_set, array.length_strncpy]
  positive := array.positive

/-- The getter finds a NUL within an array that was assigned to. -/
theorem CharArray.terminated_assign {size : Nat} (array : CharArray size)
    (text : String) : 0 ∈ (array.assign text).bytes := by
  apply List.mem_set
  rw [array.length_strncpy]
  exact Nat.sub_lt array.positive Nat.zero_lt_one

/-- The getter, for an array with a NUL; `none` stands for the
`UnicodeDecodeError`. -/
def CharArray.text {size : Nat} (array : CharArray size) : Option String :=
  decode (cBytes array.bytes)

/-- The name of a record field. -/
structure PAttr where
  name : CharArray 26

def PAttr.getName (attr : PAttr) : Option String :=
  attr.name.text

def PAttr.setName (attr : PAttr) (n : String) : PAttr :=
  { attr with name := attr.name.assign n }

/-- The name of a section; `size` is the size that CycLib gives the array. -/
structure CbfSectionHeader (size : Nat) where
  name : CharArray size

def CbfSectionHeader.getName {size : Nat} (header : CbfSectionHeader size) :
    Option String :=
  header.name.text

def CbfSectionHeader.setName {size : Nat} (header : CbfSectionHeader size)
    (n : String) : CbfSectionHeader size :=
  { header with name := header.name.assign n }

end CycFlowPy.Names
