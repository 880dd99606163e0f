import Mathlib.Algebra.GroupWithZero.Nat
import Mathlib.Algebra.Order.BigOperators.Group.List
import Mathlib.Algebra.Order.Group.Nat

/-!
# Writing XML

An element with its attributes, a text and children, and the text that `xml.etree` writes of it.

What is written of an element is no shorter than what is written of its children
(`size_children_le`), and each attribute costs four bytes beside its name and its value
(`size_attributes`).
-/

namespace Xml

open List

/-- An element.  One without a text has the empty text. -/
inductive Element where
  | mk (tag : String) (attrib : List (String × String)) (text : String) (children : List Element)

/-- What stands for a character of a text. -/
def escapedText (c : Char) : List Char :=
  match c with
  | '&' => "&amp;".toList
  | '<' => "&lt;".toList
  | '>' => "&gt;".toList
  | c => [c]

/-- What stands for a character of an attribute. -/
def escapedAttrib (c : Char) : List Char :=
  match c with
  | '"' => "&quot;".toList
  | '\r' => "&#13;".toList
  | '\n' => "&#10;".toList
  | '\t' => "&#09;".toList
  | c => escapedText c

/-- `_escape_cdata`. -/
def escapeText (text : String) : String := String.ofList (text.toList.flatMap escapedText)

/-- `_escape_attrib`. -/
def escapeAttrib (value : String) : String := String.ofList (value.toList.flatMap escapedAttrib)

/-- The attributes of an element. -/
def attributes : List (String × String) → String
  | [] => ""
  | (name, value) :: attrib =>
    " " ++ name ++ "=\"" ++ escapeAttrib value ++ "\"" ++ attributes attrib

mutual

/-- `ET.tostring(element, encoding="unicode")`. -/
def tostring : Element → String
  | .mk tag attrib text children =>
    if text = "" ∧ children.isEmpty then "<" ++ tag ++ attributes attrib ++ " />"
    else "<" ++ tag ++ attributes attrib ++ ">" ++ escapeText text ++ tostrings children ++
      "</" ++ tag ++ ">"

/-- What is written of elements in a row. -/
def tostrings : List Element → String
  | [] => ""
  | child :: children => tostring child ++ tostrings children

end

/-! ## Sizes -/

/-- `len(text.encode())`. -/
def size (text : String) : Nat := text.utf8ByteSize

@[simp] theorem size_append (s t : String) : size (s ++ t) = size s + size t :=
  String.utf8ByteSize_append

theorem size_tostrings (children : List Element) :
    size (tostrings children) = (children.map fun child => size (tostring child)).sum := by
  induction children with
  | nil => rfl
  | cons child children ih => rw [tostrings, size_append, ih, map_cons, sum_cons]

theorem size_attributes (attrib : List (String × String)) :
    size (attributes attrib) =
      (attrib.map fun entry => size entry.1 + size (escapeAttrib entry.2) + 4).sum := by
  have hspace : size " " = 1 := by decide
  have hopening : size "=\"" = 2 := by decide
  have hclosing : size "\"" = 1 := by decide
  induction attrib with
  | nil => rfl
  | cons entry attrib ih =>
    rw [attributes, map_cons, sum_cons]
    simp only [size_append, ih, hspace, hopening, hclosing]
    omega

/-- An element is written no shorter than its tag and its attributes. -/
theorem size_attributes_le (tag : String) (attrib : List (String × String)) (text : String)
    (children : List Element) :
    size tag + size (attributes attrib) + 4 ≤ size (tostring (.mk tag attrib text children)) := by
  have hopening : size "<" = 1 := by decide
  have hend : size " />" = 3 := by decide
  have hclosing : size ">" = 1 := by decide
  have hslash : size "</" = 2 := by decide
  rw [tostring]
  split
  · simp only [size_append, hopening, hend]
    omega
  · simp only [size_append, hopening, hclosing, hslash]
    omega

/-- An element is written no shorter than its children. -/
theorem size_children_le (tag : String) (attrib : List (String × String)) (text : String)
    (children : List Element) :
    (children.map fun child => size (tostring child)).sum ≤
      size (tostring (.mk tag attrib text children)) := by
  rw [tostring]
  split
  next h =>
    rw [isEmpty_iff.mp h.2]
    exact Nat.zero_le _
  next =>
    simp only [size_append, size_tostrings]
    omega

/-- A child is written within its element. -/
theorem size_child_le {tag : String} {attrib : List (String × String)} {text : String}
    {children : List Element} {child : Element} (h : child ∈ children) :
    size (tostring child) ≤ size (tostring (.mk tag attrib text children)) :=
  (single_le_sum (fun _ _ => Nat.zero_le _) _ (mem_map_of_mem h)).trans
    (size_children_le tag attrib text children)

end Xml
