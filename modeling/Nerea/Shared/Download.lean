import Mathlib.Data.List.Basic
import Mathlib.Logic.Function.Basic
import Nerea.Shared.Overwrite

/-!
# Files that are downloaded in place

A transfer writes its body over the file itself, each piece where the transfer stands.
Opening a file empties it, while the transfers that opened it before go on writing to it. A
file is complete when it holds the whole body it was last opened for.
-/

set_option autoImplicit false

namespace Download

universe u

/-- What a file holds, the body it was last opened for, the transfer that opened it then, and
how much of the body that transfer has written. -/
structure Received where
  contents : List UInt8
  body : List UInt8
  opener : ℕ
  written : ℕ

namespace Received

def Complete (r : Received) : Prop := r.contents = r.body

/-- The last to open the file has not written the whole body, and may never do so. -/
def Lacks (r : Received) : Prop := r.written < r.body.length

def opened (i : ℕ) (body : List UInt8) : Received := ⟨[], body, i, 0⟩

/-- Transfer `i` writes a piece where it stands. -/
def write (r : Received) (i off : ℕ) (piece : List UInt8) : Received :=
  { r with
    contents := Overwrite.overwrite 0 r.contents off piece
    written := if r.opener = i then off + piece.length else r.written }

/-- The file agrees with the body as far as its opener has written, and is no longer. -/
structure Sound (r : Received) : Prop where
  written_le : r.written ≤ r.contents.length
  length_le : r.contents.length ≤ r.body.length
  agrees : ∀ k, k < r.written → r.contents[k]? = r.body[k]?

/-- The file holds what its opener has written. -/
structure Exact (r : Received) : Prop where
  written_le : r.written ≤ r.body.length
  contents : r.contents = r.body.take r.written

variable {r : Received} {i off : ℕ} {piece body : List UInt8}

theorem Sound.complete (hr : r.Sound) (h : ¬ r.Lacks) : r.Complete := by
  have hall : r.body.length ≤ r.written := Nat.le_of_not_lt h
  have hlen : r.contents.length = r.body.length :=
    Nat.le_antisymm hr.length_le (Nat.le_trans hall hr.written_le)
  apply List.ext_getElem? fun k => ?_
  by_cases hk : k < r.written
  · exact hr.agrees k hk
  · rw [List.getElem?_eq_none (by omega), List.getElem?_eq_none (by omega)]

theorem sound_opened (i : ℕ) (body : List UInt8) : (opened i body).Sound where
  written_le := Nat.le_refl 0
  length_le := Nat.zero_le _
  agrees := fun k hk => absurd hk (Nat.not_lt_zero k)

/-- A piece of the body is written where it stands in the body, by the opener where it has
got to. -/
theorem Sound.write (hr : r.Sound) (hpiece : piece <+: r.body.drop off)
    (hoff : r.opener = i → off = r.written) : (r.write i off piece).Sound := by
  have hgrows := Overwrite.length_le_overwrite 0 r.contents off piece
  have hfits : piece.length ≤ r.body.length - off := by
    rw [← List.length_drop]
    exact hpiece.length_le
  have hlong := Overwrite.le_length_overwrite 0 r.contents off piece
  refine ⟨?_, ?_, ?_⟩
  · change (if r.opener = i then off + piece.length else r.written) ≤
      (Overwrite.overwrite 0 r.contents off piece).length
    split
    · rename_i hopener
      have hstands := hr.written_le
      rw [← hoff hopener] at hstands
      exact hlong hstands
    · exact Nat.le_trans hr.written_le hgrows
  · change (Overwrite.overwrite 0 r.contents off piece).length ≤ r.body.length
    by_cases hnil : piece = []
    · rw [hnil, Overwrite.overwrite_nil]
      exact hr.length_le
    · have hpos := List.length_pos_of_ne_nil hnil
      have hle := hr.length_le
      rw [Overwrite.length_overwrite 0 r.contents off hnil]
      omega
  · intro k hk
    change k < (if r.opener = i then off + piece.length else r.written) at hk
    apply Overwrite.getElem?_overwrite_of_prefix 0 hpiece
    by_cases hmem : off ≤ k ∧ k < off + piece.length
    · exact Or.inl hmem
    · have hwritten : k < r.written := by
        split at hk
        · rename_i hopener
          rw [← hoff hopener]
          omega
        · exact hk
      exact Or.inr ⟨Nat.lt_of_lt_of_le hwritten hr.written_le, hr.agrees k hwritten⟩

theorem Exact.complete_iff (hr : r.Exact) : r.Complete ↔ ¬ r.Lacks := by
  unfold Complete Lacks
  rw [hr.contents, Nat.not_lt]
  constructor
  · intro h
    rw [← h, List.length_take]
    exact Nat.min_le_left _ _
  · exact List.take_of_length_le

theorem exact_opened (i : ℕ) (body : List UInt8) : (opened i body).Exact where
  written_le := Nat.zero_le _
  contents := List.take_zero.symm

/-- The opener goes on where it has got to. -/
theorem Exact.write (hr : r.Exact) (hopener : r.opener = i) (n : ℕ) :
    (r.write i r.written ((r.body.drop r.written).take n)).Exact := by
  have hcontents : Overwrite.overwrite 0 r.contents r.written ((r.body.drop r.written).take n) =
      r.body.take (r.written + n) := by
    rw [hr.contents]
    exact Overwrite.overwrite_take 0 r.body r.written n
  have hlength : ((r.body.drop r.written).take n).length = min n (r.body.length - r.written) := by
    rw [List.length_take, List.length_drop]
  have hle := hr.written_le
  refine ⟨?_, ?_⟩
  · change (if r.opener = i then _ else r.written) ≤ r.body.length
    rw [if_pos hopener, hlength]
    omega
  · change Overwrite.overwrite 0 r.contents r.written _ =
      r.body.take (if r.opener = i then _ else r.written)
    rw [hcontents, if_pos hopener, hlength, List.take_eq_take_iff]
    omega

end Received

/-- A transfer awaits the answer, the file it opens for the body of the answer, or the write of
what is left of it. -/
inductive Phase (F : Type u) where
  | requested (f : F)
  | answered (f : F) (body : List UInt8)
  | writing (f : F) (off : ℕ) (rest : List UInt8)

def Phase.file {F : Type u} : Phase F → F
  | requested f => f
  | answered f _ => f
  | writing f _ _ => f

abbrev Disk (F : Type u) : Type u := F → Option Received

namespace Disk

variable {F : Type u}

def empty : Disk F := fun _ => none

/-- The last to open the file has a part of the body left. -/
def Lacks (d : Disk F) (f : F) : Prop := ∃ r, d f = some r ∧ r.Lacks

/-- A transfer that is the last to have opened its file stands where the file says. -/
def Follows (d : Disk F) (i : ℕ) : Phase F → Prop
  | .writing f off rest => ∃ r, d f = some r ∧
      (r.opener = i → off = r.written ∧ rest = r.body.drop r.written)
  | _ => True

variable [DecidableEq F]

def openWrite (d : Disk F) (i : ℕ) (f : F) (body : List UInt8) : Disk F :=
  Function.update d f (some (.opened i body))

def write (d : Disk F) (i : ℕ) (f : F) (off : ℕ) (piece : List UInt8) : Disk F :=
  Function.update d f ((d f).map fun r => r.write i off piece)

variable {d : Disk F} {i j : ℕ} {f g : F} {r : Received} {off : ℕ} {body rest : List UInt8}

@[simp] theorem openWrite_self : d.openWrite i f body f = some (.opened i body) :=
  Function.update_self f _ d

theorem openWrite_of_ne (h : g ≠ f) : d.openWrite i f body g = d g :=
  Function.update_of_ne h _ d

@[simp] theorem write_self (piece : List UInt8) :
    d.write i f off piece f = (d f).map fun r => r.write i off piece :=
  Function.update_self f _ d

theorem write_of_ne (h : g ≠ f) (piece : List UInt8) : d.write i f off piece g = d g :=
  Function.update_of_ne h _ d

theorem isSome_openWrite (h : (d g).isSome) : (d.openWrite i f body g).isSome := by
  by_cases heq : g = f
  · rw [heq, openWrite_self]
    rfl
  · rw [openWrite_of_ne heq]
    exact h

theorem isSome_write (h : (d g).isSome) (piece : List UInt8) :
    (d.write i f off piece g).isSome := by
  by_cases heq : g = f
  · rw [heq, write_self, Option.isSome_map]
    exact heq ▸ h
  · rw [write_of_ne heq]
    exact h

/-- What holds of every file holds after one is opened or written to, if it holds of this
one. -/
theorem forall_openWrite {P : Received → Prop} (hd : ∀ g r, d g = some r → P r)
    (hf : P (.opened i body)) : ∀ g r, d.openWrite i f body g = some r → P r := by
  intro g r hr
  by_cases heq : g = f
  · rw [heq, openWrite_self] at hr
    exact Option.some.inj hr ▸ hf
  · rw [openWrite_of_ne heq] at hr
    exact hd g r hr

theorem forall_write {P : Received → Prop} {piece : List UInt8}
    (hd : ∀ g r, d g = some r → P r) (hf : ∀ r, d f = some r → P (r.write i off piece)) :
    ∀ g r, d.write i f off piece g = some r → P r := by
  intro g r hr
  by_cases heq : g = f
  · rw [heq, write_self] at hr
    obtain ⟨r', hr', rfl⟩ := Option.map_eq_some_iff.mp hr
    exact hf r' hr'
  · rw [write_of_ne heq] at hr
    exact hd g r hr

theorem follows_openWrite : (d.openWrite i f body).Follows i (.writing f 0 body) :=
  ⟨_, openWrite_self, fun _ => ⟨rfl, rfl⟩⟩

/-- Another transfer opens a file. -/
theorem Follows.openWrite {q : Phase F} (hq : d.Follows j q) (hij : i ≠ j) :
    (d.openWrite i f body).Follows j q := by
  cases q with
  | requested g => trivial
  | answered g body => trivial
  | writing g off rest =>
    obtain ⟨r, hr, hstands⟩ := hq
    by_cases heq : g = f
    · rw [heq]
      exact ⟨_, openWrite_self, fun h => absurd h hij⟩
    · exact ⟨r, (openWrite_of_ne heq).trans hr, hstands⟩

/-- Another transfer writes. -/
theorem Follows.write_of_ne {q : Phase F} (hq : d.Follows j q) (hij : i ≠ j)
    (piece : List UInt8) : (d.write i f off piece).Follows j q := by
  cases q with
  | requested g => trivial
  | answered g body => trivial
  | writing g off' rest =>
    obtain ⟨r, hr, hstands⟩ := hq
    by_cases heq : g = f
    · subst heq
      refine ⟨r.write i off piece, by rw [write_self, hr, Option.map_some], ?_⟩
      intro hopener
      have hother : r.opener ≠ i := fun h => hij (h.symm.trans hopener)
      change off' = (if r.opener = i then _ else r.written) ∧
        rest = r.body.drop (if r.opener = i then _ else r.written)
      rw [if_neg hother]
      exact hstands hopener
    · exact ⟨r, (Disk.write_of_ne heq piece).trans hr, hstands⟩

/-- The transfer itself writes the next `n` bytes. -/
theorem Follows.write (hq : d.Follows i (.writing f off rest)) (n : ℕ) :
    (d.write i f off (rest.take n)).Follows i
      (.writing f (off + (rest.take n).length) (rest.drop n)) := by
  obtain ⟨r, hr, hstands⟩ := hq
  refine ⟨r.write i off (rest.take n), by rw [write_self, hr, Option.map_some], ?_⟩
  intro hopener
  change r.opener = i at hopener
  obtain ⟨rfl, rfl⟩ := hstands hopener
  change _ = (if r.opener = i then _ else r.written) ∧
    _ = r.body.drop (if r.opener = i then _ else r.written)
  rw [if_pos hopener]
  refine ⟨rfl, ?_⟩
  rw [List.drop_drop, List.drop_eq_drop_iff, List.length_take, List.length_drop]
  omega

end Disk
end Download
