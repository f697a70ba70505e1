import Mathlib.Data.List.Basic
import Mathlib.Logic.Function.Basic
import Nerea.Shared.Overwrite

/-!
# One entry of a directory and the files that were opened through it

Removing the entry does not close what was opened: a descriptor goes on with the file it
was opened on, and only opening for writing makes the entry again.
-/

set_option autoImplicit false

universe u

/-- The file the entry leads to, if it is there, and the contents of all that were made. -/
structure DirEntry (α : Type u) where
  entry : Option ℕ
  contents : ℕ → List α
  made : ℕ

namespace DirEntry

variable {α : Type u}

def holding (xs : List α) : DirEntry α := ⟨some 0, fun _ => xs, 1⟩

/-- The file that opening for writing leads to. -/
def target (f : DirEntry α) : ℕ := f.entry.getD f.made

/-- Opening for writing empties the file, or makes a new one. -/
def openWrite (f : DirEntry α) : DirEntry α where
  entry := some f.target
  contents := Function.update f.contents f.target []
  made := max f.made (f.target + 1)

def write (gap : α) (f : DirEntry α) (i off : ℕ) (piece : List α) : DirEntry α :=
  { f with contents :=
      Function.update f.contents i (Overwrite.overwrite gap (f.contents i) off piece) }

def unlink (f : DirEntry α) : DirEntry α := { f with entry := none }

@[simp] theorem entry_openWrite (f : DirEntry α) : f.openWrite.entry = some f.target := rfl

@[simp] theorem entry_write (gap : α) (f : DirEntry α) (i off : ℕ) (piece : List α) :
    (f.write gap i off piece).entry = f.entry := rfl

@[simp] theorem entry_unlink (f : DirEntry α) : f.unlink.entry = none := rfl

end DirEntry
