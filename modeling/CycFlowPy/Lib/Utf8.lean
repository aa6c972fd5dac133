/-
Module: CycFlowPy.Lib.Utf8
Purpose: UTF-8 text as lists of bytes, and text that is cut after a number of
  bytes or at its first zero byte.
Trusted boundary: none
Main exports: encode, decode, decode_eq_some_iff, decode_encode,
  encode_injective, prefix_of_encode_prefix, encode_takeWhile, Boundary,
  boundary_of_prefix, decode_take_iff
-/
import Mathlib.Data.List.Basic

namespace Utf8

/-- The bytes of a text. -/
def encode (chars : List Char) : List UInt8 :=
  chars.flatMap String.utf8EncodeChar

/-- The text of some bytes; `none` when they are not valid UTF-8. -/
def decode (bytes : List UInt8) : Option String :=
  String.fromUTF8? bytes.toByteArray

@[simp] theorem encode_nil : encode [] = [] := rfl

@[simp] theorem encode_cons (char : Char) (chars : List Char) :
    encode (char :: chars) = String.utf8EncodeChar char ++ encode chars :=
  List.flatMap_cons

@[simp] theorem encode_append (front back : List Char) :
    encode (front ++ back) = encode front ++ encode back :=
  List.flatMap_append

theorem encode_toByteArray (chars : List Char) :
    (encode chars).toByteArray = chars.utf8Encode := rfl

theorem encode_eq_iff {chars : List Char} {bytes : List UInt8} :
    encode chars = bytes ↔ chars.utf8Encode = bytes.toByteArray := by
  rw [← encode_toByteArray]
  constructor
  · intro same
    rw [same]
  · intro same
    have lists := congrArg (fun array => array.data.toList) same
    simpa using lists

/-! ### Decoding -/

theorem decode_encode (chars : List Char) :
    decode (encode chars) = some (String.ofList chars) := by
  unfold decode String.fromUTF8?
  rw [encode_toByteArray, dif_pos ByteArray.isValidUTF8_utf8Encode]
  rfl

theorem decode_eq_some_iff {bytes : List UInt8} {text : String} :
    decode bytes = some text ↔ encode text.toList = bytes := by
  constructor
  · intro decoded
    unfold decode String.fromUTF8? at decoded
    split at decoded
    case isFalse => cases decoded
    case isTrue valid =>
      cases decoded
      rw [encode_eq_iff, String.utf8Encode_toList]
      rfl
  · rintro rfl
    rw [decode_encode, String.ofList_toList]

theorem encode_injective {chars others : List Char}
    (same : encode chars = encode others) : chars = others := by
  have texts := decode_encode others
  rw [← same, decode_encode] at texts
  exact String.ofList_injective (Option.some.inj texts)

/-- A text whose bytes begin another text begins it as text. -/
theorem prefix_of_encode_prefix {front chars : List Char}
    (inOrder : encode front <+: encode chars) : front <+: chars := by
  obtain ⟨rest, together⟩ := inOrder
  apply List.isPrefix_of_utf8Encode_append_eq_utf8Encode rest.toByteArray
  rw [← encode_toByteArray, ← encode_toByteArray, ← together,
    List.toByteArray_append]

/-! ### The first zero byte -/

theorem zero_ne_ofNat {code : Nat} (positive : 0 < code) (byte : code < 256) :
    0 ≠ UInt8.ofNat code := by
  intro same
  have codes := congrArg UInt8.toNat same
  rw [UInt8.toNat_ofNat_of_lt' byte, UInt8.toNat_zero] at codes
  exact Nat.ne_of_lt positive codes

theorem zero_mem_utf8EncodeChar {char : Char}
    (zero : 0 ∈ String.utf8EncodeChar char) : char = '\x00' := by
  unfold String.utf8EncodeChar at zero
  extract_lets code at zero
  by_cases single : code ≤ 127
  · rw [if_pos single] at zero
    have nul : code = 0 := by
      by_contra other
      exact zero_ne_ofNat (Nat.pos_of_ne_zero other) (by omega)
        (List.mem_singleton.mp zero)
    exact Char.ext (UInt32.toNat_inj.mp nul)
  · -- every byte of a longer encoding has its highest bit set
    rw [if_neg single] at zero
    exfalso
    split at zero
    · rcases List.mem_pair.mp zero with zero | zero
      · exact zero_ne_ofNat (by omega) (by omega) zero
      · exact zero_ne_ofNat (by omega) (by omega) zero
    · split at zero
      · rcases List.mem_cons.mp zero with zero | zero
        · exact zero_ne_ofNat (by omega) (by omega) zero
        rcases List.mem_pair.mp zero with zero | zero
        · exact zero_ne_ofNat (by omega) (by omega) zero
        · exact zero_ne_ofNat (by omega) (by omega) zero
      · rcases List.mem_cons.mp zero with zero | zero
        · exact zero_ne_ofNat (by omega) (by omega) zero
        rcases List.mem_cons.mp zero with zero | zero
        · exact zero_ne_ofNat (by omega) (by omega) zero
        rcases List.mem_pair.mp zero with zero | zero
        · exact zero_ne_ofNat (by omega) (by omega) zero
        · exact zero_ne_ofNat (by omega) (by omega) zero

/-- What stands before the first zero byte is the text before the first NUL
character. -/
theorem encode_takeWhile (chars : List Char) :
    (encode chars).takeWhile (· ≠ 0) =
      encode (chars.takeWhile (· ≠ '\x00')) := by
  induction chars with
  | nil => rfl
  | cons char chars inductionHypothesis =>
      rw [encode_cons]
      by_cases nul : char = '\x00'
      · subst nul
        rfl
      · rw [List.takeWhile_cons_of_pos (by simpa using nul), encode_cons,
          List.takeWhile_append_of_pos, inductionHypothesis]
        intro byte member
        have notZero : byte ≠ 0 := by
          rintro rfl
          exact nul (zero_mem_utf8EncodeChar member)
        simpa using notZero

/-! ### Cutting a text after a number of bytes -/

/-- The text has `count` bytes before one of its characters, or as a whole. -/
def Boundary (chars : List Char) (count : Nat) : Prop :=
  ∃ front, front <+: chars ∧ (encode front).length = count

theorem prefix_encode {front chars : List Char} (inOrder : front <+: chars) :
    encode front <+: encode chars := by
  obtain ⟨rest, rfl⟩ := inOrder
  exact ⟨encode rest, (encode_append front rest).symm⟩

/-- A cut inside a prefix of the text is a cut of the text. -/
theorem boundary_of_prefix {part chars : List Char} {count : Nat}
    (inOrder : part <+: chars) (inside : count ≤ (encode part).length) :
    Boundary part count ↔ Boundary chars count := by
  constructor
  · rintro ⟨front, inPart, length⟩
    exact ⟨front, inPart.trans inOrder, length⟩
  · rintro ⟨front, inChars, length⟩
    refine ⟨front, prefix_of_encode_prefix ?_, length⟩
    exact List.prefix_of_prefix_length_le (prefix_encode inChars)
      (prefix_encode inOrder) (length ▸ inside)

/-- The first `count` bytes of a text are valid exactly when they end between
two of its characters. -/
theorem decode_take_iff {chars : List Char} {count : Nat}
    (inside : count ≤ (encode chars).length) :
    (∃ text, decode ((encode chars).take count) = some text) ↔
      Boundary chars count := by
  constructor
  · rintro ⟨text, decoded⟩
    have bytes := decode_eq_some_iff.mp decoded
    refine ⟨text.toList, prefix_of_encode_prefix ?_, ?_⟩
    · rw [bytes]
      exact List.take_prefix count _
    · rw [bytes, List.length_take, Nat.min_eq_left inside]
  · rintro ⟨front, inOrder, rfl⟩
    refine ⟨String.ofList front, ?_⟩
    rw [← List.prefix_iff_eq_take.mp (prefix_encode inOrder), decode_encode]

end Utf8
