import Stencil.Text.Class

/-!
# Texts

A text is a list of characters. Places in a text are counted in bytes of its UTF-8 form, so this
module has the byte size of a text and the part between two byte offsets. The laws at the end say
that cutting a text at the size of a first part gives back that part and what follows it.
-/

namespace Stencil

/-- A text, character by character. -/
abbrev Text := List Char

namespace Text

/-- Number of bytes of the UTF-8 form. -/
def bytes : Text → Nat
  | [] => 0
  | c :: t => c.utf8Size + bytes t

/-- What follows the first `n` bytes, if they end between two characters. -/
def dropBytes? : Text → Nat → Option Text
  | t, 0 => some t
  | [], _ + 1 => none
  | c :: t, n + 1 => if c.utf8Size ≤ n + 1 then dropBytes? t (n + 1 - c.utf8Size) else none

/-- The first `n` bytes, if they end between two characters. -/
def takeBytes? : Text → Nat → Option Text
  | _, 0 => some []
  | [], _ + 1 => none
  | c :: t, n + 1 =>
    if c.utf8Size ≤ n + 1 then (takeBytes? t (n + 1 - c.utf8Size)).map (c :: ·) else none

/-- The part from byte `start` up to byte `stop`, if both lie between two characters of the text
and are in order. -/
def slice? (t : Text) (start stop : Nat) : Option Text :=
  if start ≤ stop then (dropBytes? t start).bind (takeBytes? · (stop - start)) else none

/-- The text without the blanks at its front. -/
def trimStart (t : Text) : Text := t.dropWhile isBlank

/-- The text without the blanks at its back. -/
def trimEnd (t : Text) : Text := (t.reverse.dropWhile isBlank).reverse

/-- The text without the blanks at either end. -/
def trim (t : Text) : Text := trimEnd (trimStart t)

/-- The text with `margin` after every line feed. -/
def indent (margin t : Text) : Text :=
  t.flatMap fun c => if c = '\n' then c :: margin else [c]

/-- The text after the last line feed, or all of it if there is none. -/
def lastLine (t : Text) : Text := (t.reverse.takeWhile (· ≠ '\n')).reverse

/-- The parts before and after the first occurrence of `separator`. -/
def splitOnce? (separator : Text) : Text → Option (Text × Text)
  | [] => if separator.isEmpty then some ([], []) else none
  | c :: t =>
    if separator.isPrefixOf (c :: t) then some ([], (c :: t).drop separator.length)
    else (splitOnce? separator t).map fun (before, after) => (c :: before, after)

/-- Parts joined with `separator` between neighbours. -/
def joinWith (separator : Text) : List Text → Text
  | [] => []
  | [t] => t
  | t :: ts => t ++ separator ++ joinWith separator ts

/-- Whether the text is a name: a letter or an underscore, then letters, numeric characters and
underscores. -/
def isName (t : Text) : Bool := t.head?.any isNameStart && t.all isNamePart

/-! ## Laws of cutting -/

@[simp] theorem bytes_nil : bytes [] = 0 := rfl

@[simp] theorem bytes_cons (c : Char) (t : Text) : bytes (c :: t) = c.utf8Size + bytes t := rfl

@[simp] theorem bytes_append (s t : Text) : bytes (s ++ t) = bytes s + bytes t := by
  induction s with
  | nil => simp
  | cons c s ih => simp [ih, Nat.add_assoc]

theorem length_le_bytes (t : Text) : t.length ≤ bytes t := by
  induction t with
  | nil => simp
  | cons c t ih =>
    have := c.utf8Size_pos
    simp only [List.length_cons, bytes_cons]
    omega

theorem dropBytes?_cons_add (c : Char) (t : Text) (n : Nat) :
    dropBytes? (c :: t) (c.utf8Size + n) = dropBytes? t n := by
  obtain ⟨k, hk⟩ : ∃ k, c.utf8Size = k + 1 := ⟨c.utf8Size - 1, by have := c.utf8Size_pos; omega⟩
  rw [hk, show k + 1 + n = (k + n) + 1 by omega, dropBytes?, hk, if_pos (by omega)]
  congr 1
  omega

theorem takeBytes?_cons_add (c : Char) (t : Text) (n : Nat) :
    takeBytes? (c :: t) (c.utf8Size + n) = (takeBytes? t n).map (c :: ·) := by
  obtain ⟨k, hk⟩ : ∃ k, c.utf8Size = k + 1 := ⟨c.utf8Size - 1, by have := c.utf8Size_pos; omega⟩
  rw [hk, show k + 1 + n = (k + n) + 1 by omega, takeBytes?, hk, if_pos (by omega)]
  congr 2
  omega

@[simp] theorem dropBytes?_zero (t : Text) : dropBytes? t 0 = some t := by
  cases t <;> rfl

@[simp] theorem takeBytes?_zero (t : Text) : takeBytes? t 0 = some [] := by
  cases t <;> rfl

@[simp] theorem dropBytes?_bytes_append (s t : Text) : dropBytes? (s ++ t) (bytes s) = some t := by
  induction s with
  | nil => simp
  | cons c s ih => simpa [dropBytes?_cons_add] using ih

@[simp] theorem takeBytes?_bytes_append (s t : Text) : takeBytes? (s ++ t) (bytes s) = some s := by
  induction s with
  | nil => simp
  | cons c s ih => simpa [takeBytes?_cons_add] using ih

/-- Cutting out the middle one of three parts. -/
theorem slice?_append (s t u : Text) :
    slice? (s ++ t ++ u) (bytes s) (bytes s + bytes t) = some t := by
  simp [slice?, List.append_assoc]

@[simp] theorem indent_nil (margin : Text) : indent margin [] = [] := rfl

@[simp] theorem indent_append (margin s t : Text) :
    indent margin (s ++ t) = indent margin s ++ indent margin t := by
  simp [indent]

end Text

end Stencil
