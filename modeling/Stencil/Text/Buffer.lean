import Stencil.Text.Basic

/-!
# Buffers

Text that is written piece by piece. The characters are kept latest first, so that writing takes
time for the new piece only.
-/

namespace Stencil

/-- A text under construction. -/
structure Buffer where
  reversed : Text
  deriving DecidableEq, Repr

namespace Buffer

def empty : Buffer := ⟨[]⟩

/-- What has been written. -/
def contents (buffer : Buffer) : Text := buffer.reversed.reverse

/-- Writes one more piece. -/
def write (buffer : Buffer) (t : Text) : Buffer := ⟨t.reverseAux buffer.reversed⟩

@[simp] theorem contents_empty : empty.contents = [] := rfl

@[simp] theorem contents_write (buffer : Buffer) (t : Text) :
    (buffer.write t).contents = buffer.contents ++ t := by
  simp [contents, write, List.reverseAux_eq]

/-- A buffer is what has been written to it. -/
theorem ext_contents {a b : Buffer} (h : a.contents = b.contents) : a = b := by
  obtain ⟨s⟩ := a
  obtain ⟨t⟩ := b
  simpa [contents] using h

end Buffer

end Stencil
