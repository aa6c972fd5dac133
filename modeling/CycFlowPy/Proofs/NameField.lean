/-
Module: CycFlowPy.Proofs.NameField
Purpose: A name survives its `char` array exactly when it is short enough or
  the cut falls between two of its characters.
Trusted boundary: none
Main exports: CharArray.text_assign, NameSurvives, CutsBetween,
  CharArray.survives_iff, names_survive_iff
-/
import CycFlowPy.Model.NameField
import Mathlib.Data.List.Infix
import Mathlib.Data.List.TakeWhile

namespace CycFlowPy.Names

open Utf8

/-! ### What the array holds -/

/-- The characters of a name up to its first NUL. -/
def shown (text : String) : List Char :=
  text.toList.takeWhile (· ≠ '\x00')

theorem prefix_shown (text : String) : shown text <+: text.toList :=
  List.takeWhile_prefix _

theorem shown_eq_toList {text : String} (noNul : '\x00' ∉ text.toList) :
    shown text = text.toList := by
  apply List.takeWhile_eq_self_iff.mpr
  intro char member
  have notNul : char ≠ '\x00' := by
    rintro rfl
    exact noNul member
  simpa using notNul

theorem nul_notMem_shown (text : String) : '\x00' ∉ shown text := by
  intro nul
  have notNul := List.mem_takeWhile_imp nul
  simp at notNul

/-- The bytes before a NUL that follows are those of the whole list. -/
theorem takeWhile_append_stop {α : Type*} {p : α → Bool} (l : List α) {x : α}
    (stop : p x = false) : (l ++ [x]).takeWhile p = l.takeWhile p := by
  rw [List.takeWhile_append]
  split
  case isTrue all =>
    rw [List.takeWhile_cons_of_neg (by simp [stop]), List.append_nil]
    exact ((List.takeWhile_prefix p).eq_of_length all).symm
  case isFalse => rfl

theorem cBytes_cStr (text : String) :
    cBytes (cStr text) = encode (shown text) := by
  rw [cBytes, cStr, takeWhile_append_stop _ (by simp), encode_takeWhile, shown]

theorem cBytes_append {front back : List UInt8} (noNul : 0 ∉ front) :
    cBytes (front ++ 0 :: back) = front := by
  unfold cBytes
  rw [List.takeWhile_append_of_pos, List.takeWhile_cons_of_neg (by simp),
    List.append_nil]
  intro byte member
  have notZero : byte ≠ 0 := by
    rintro rfl
    exact noNul member
  simpa using notZero

theorem zero_notMem_encode {chars : List Char} (noNul : '\x00' ∉ chars) :
    0 ∉ encode chars := by
  intro zero
  rcases List.mem_flatMap.mp zero with ⟨char, member, zeroByte⟩
  rw [zero_mem_utf8EncodeChar zeroByte] at member
  exact noNul member

/-- After the terminator has been written, the copied bytes are followed by
NULs only. -/
theorem strncpy_set {dest : List UInt8} (source : List UInt8) {count : Nat}
    (room : dest.length = count + 1) :
    (strncpy dest source count).set count 0 =
      (cBytes source).take count ++ 0 :: List.replicate
        (count - ((cBytes source).take count).length) 0 := by
  obtain ⟨last, rest⟩ : ∃ last, dest.drop count = [last] := by
    apply List.length_eq_one_iff.mp
    rw [List.length_drop, room, Nat.add_sub_cancel_left]
  have copied : ((cBytes source).take count).length ≤ count :=
    List.length_take_le _ _
  have filled : ((cBytes source).take count ++ List.replicate
      (count - ((cBytes source).take count).length) 0).length = count := by
    rw [List.length_append, List.length_replicate]
    exact Nat.add_sub_cancel' copied
  simp only [strncpy, rest]
  rw [List.set_append_right _ _ (Nat.le_of_eq filled), filled, Nat.sub_self,
    List.set_cons_zero, List.append_assoc, ← List.replicate_succ',
    List.replicate_succ]

/-- The getter sees the C string, cut after `size - 1` bytes. -/
theorem CharArray.text_assign {size : Nat} (array : CharArray size)
    (text : String) :
    (array.assign text).text =
      decode ((encode (shown text)).take (size - 1)) := by
  have room : array.bytes.length = size - 1 + 1 := by
    rw [array.sized, Nat.sub_add_cancel array.positive]
  have noNul : 0 ∉ (encode (shown text)).take (size - 1) := by
    intro zero
    exact zero_notMem_encode (nul_notMem_shown text) (List.mem_of_mem_take zero)
  have bytes := strncpy_set (cStr text) room
  rw [cBytes_cStr] at bytes
  rw [CharArray.text, show (array.assign text).bytes = _ from bytes,
    cBytes_append noNul]

/-! ### Which names survive -/

/-- The name `n` survives being assigned to an object with a `name` of `size`
bytes: the getter succeeds and returns a prefix of `n`, all of it when it has
no NUL and room, and assigning that again changes nothing. -/
def NameSurvives {σ : Type} (name : σ → Option String)
    (assign : σ → String → σ) (size : Nat) (object : σ) (n : String) : Prop :=
  ∃ text, name (assign object n) = some text ∧
    text.toList <+: n.toList ∧
    (0 ∉ encode n.toList → (encode n.toList).length ≤ size - 1 → text = n) ∧
    name (assign (assign object n) text) = name (assign object n)

/-- Up to its first NUL the name takes at most `size - 1` bytes, or one of its
characters ends exactly there. -/
def CutsBetween (size : Nat) (n : String) : Prop :=
  (encode (shown n)).length ≤ size - 1 ∨ Boundary n.toList (size - 1)

/-- Whatever the getter returns meets the rest of the property. -/
theorem CharArray.survives_of_text {size : Nat} {array : CharArray size}
    {n text : String} (read : (array.assign n).text = some text) :
    NameSurvives CharArray.text CharArray.assign size array n := by
  have bytes := read
  rw [CharArray.text_assign, decode_eq_some_iff] at bytes
  have inShown : text.toList <+: shown n := by
    apply prefix_of_encode_prefix
    rw [bytes]
    exact List.take_prefix _ _
  refine ⟨text, read, inShown.trans (prefix_shown n), ?_, ?_⟩
  · intro noZero room
    have noNul : '\x00' ∉ n.toList := by
      intro nul
      exact noZero (List.mem_flatMap.mpr ⟨'\x00', nul, by decide⟩)
    rw [shown_eq_toList noNul, List.take_of_length_le room] at bytes
    apply String.toList_injective
    exact encode_injective bytes
  · have noNul : '\x00' ∉ text.toList := by
      intro nul
      exact nul_notMem_shown n (inShown.subset nul)
    rw [CharArray.text_assign, shown_eq_toList noNul, read, bytes,
      List.take_take, Nat.min_self, ← bytes, decode_encode,
      String.ofList_toList]

theorem CharArray.survives_iff {size : Nat} (array : CharArray size)
    (n : String) :
    NameSurvives CharArray.text CharArray.assign size array n ↔
      CutsBetween size n := by
  have readable : NameSurvives CharArray.text CharArray.assign size array n ↔
      ∃ text, decode ((encode (shown n)).take (size - 1)) = some text := by
    rw [← CharArray.text_assign array]
    constructor
    · rintro ⟨text, read, _⟩
      exact ⟨text, read⟩
    · rintro ⟨text, read⟩
      exact CharArray.survives_of_text read
  rw [readable]
  by_cases room : (encode (shown n)).length ≤ size - 1
  · rw [List.take_of_length_le room, decode_encode]
    exact ⟨fun _ => .inl room, fun _ => ⟨_, rfl⟩⟩
  · have cut : size - 1 ≤ (encode (shown n)).length := Nat.le_of_not_le room
    rw [decode_take_iff cut, boundary_of_prefix (prefix_shown n) cut]
    exact ⟨.inr, fun between => between.resolve_left room⟩

/-- A name survives the `name` of an attribute, or of a section, if and only if
it is short enough or the cut falls between two of its characters. -/
theorem names_survive_iff {size : Nat} (attr : PAttr)
    (header : CbfSectionHeader size) (n : String) :
    (NameSurvives PAttr.getName PAttr.setName 26 attr n ↔
      CutsBetween 26 n) ∧
      (NameSurvives CbfSectionHeader.getName CbfSectionHeader.setName size
        header n ↔ CutsBetween size n) :=
  ⟨attr.name.survives_iff n, header.name.survives_iff n⟩

/-! ### A character across the cut -/

/-- An attribute without a name. -/
def blankAttr : PAttr where
  name := {
    bytes := List.replicate 26 0
    sized := rfl
    positive := by decide }

/-- 24 letters and one more of two bytes. -/
def accentedName : String :=
  String.ofList (List.replicate 24 'a' ++ ['é'])

theorem accentedName_cut : ¬ CutsBetween 26 accentedName := by
  unfold CutsBetween shown accentedName
  rw [String.toList_ofList]
  rintro (short | ⟨front, inOrder, length⟩)
  · exact absurd short (by decide)
  · have none : ∀ front ∈ (List.replicate 24 'a' ++ ['é']).inits,
        (encode front).length ≠ 26 - 1 := by
      decide
    exact none front ((List.mem_inits _ _).mpr inOrder) length

/-- Only the first byte of the last letter is stored, and the getter raises. -/
theorem name_does_not_survive :
    ¬ NameSurvives PAttr.getName PAttr.setName 26 blankAttr accentedName := by
  intro survives
  apply accentedName_cut
  exact (blankAttr.name.survives_iff accentedName).mp survives

end CycFlowPy.Names
