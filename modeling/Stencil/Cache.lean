import Stencil.Template

/-!
# Template caches

A cache compiles every text once. Each compiled template that it hands out has a number, so that
one can tell whether two requests were answered by the same one; numbers are never used again.
-/

namespace Stencil

/-- Compiled templates by their text. -/
structure Cache where
  /-- How deep bodies may nest. -/
  maxDepth : Nat
  /-- The templates with their numbers. -/
  templates : Table (Nat × Template)
  /-- The number of the next template. -/
  next : Nat

namespace Cache

/-- Nothing compiled yet. -/
def empty (maxDepth : Nat) : Cache := ⟨maxDepth, .empty, 0⟩

/-- The template of a text with its number, compiled now if it is not there yet, and the cache
after that. A text that does not compile changes nothing. -/
def get (cache : Cache) (source : Text) : Except ParseError (Nat × Template) × Cache :=
  match cache.templates.get? source with
  | some found => (.ok found, cache)
  | none =>
    match Template.compile cache.maxDepth source with
    | .error error => (.error error, cache)
    | .ok template =>
      (.ok (cache.next, template), { cache with
        templates := cache.templates.insert source (cache.next, template)
        next := cache.next + 1 })

/-- Number of templates. -/
def size (cache : Cache) : Nat := cache.templates.size

def isEmpty (cache : Cache) : Bool := cache.templates.isEmpty

/-- Forgets all templates. -/
def clear (cache : Cache) : Cache := { cache with templates := .empty }

end Cache

end Stencil
