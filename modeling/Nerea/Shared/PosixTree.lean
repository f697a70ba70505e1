import Nerea.Shared.Segments
import Mathlib.Data.List.TakeWhile

/-!
# File trees and path resolution

Directories, files and symbolic links, and the resolution of a path among them: `..` is
the parent of the directory reached so far, a link is replaced by its target, and at
most a given number of links is followed. The last name of a path may be missing, as
when a file is created.
-/

set_option autoImplicit false

namespace PosixTree

open Segments

universe u

abbrev Name := List Char
abbrev Path := List Char
/-- The names from the root to an object. -/
abbrev Loc := List Name

def dot : Name := ['.']
def dotdot : Name := ['.', '.']

inductive Entry (C : Type u) where
  | file (content : C)
  | dir
  | link (target : Path)
deriving DecidableEq

structure Tree (C : Type u) where
  entries : List (Loc × Entry C)
  cwd : Loc
  root_dir : entries.lookup [] = some .dir
  cwd_dir : entries.lookup cwd = some .dir
  parent_dir : ∀ e ∈ entries, e.1 ≠ [] → entries.lookup e.1.dropLast = some .dir
  names : ∀ e ∈ entries, ∀ n ∈ e.1, n ≠ [] ∧ '/' ∉ n ∧ n ≠ dot ∧ n ≠ dotdot
  unique : (entries.map Prod.fst).Nodup

def isAbsolute (p : Path) : Bool := p.head? == some '/'

/-- The names of a path; a slash at its end asks for a directory, as `.` does. -/
def components (p : Path) : List Name :=
  segments '/' p ++ if p.getLast? = some '/' then [dot] else []

def render (loc : Loc) : Path := if loc = [] then ['/'] else loc.flatMap ('/' :: ·)

/-- The directory part of a path: without the last name and the slashes around it. -/
def parentOf (p : Path) : Path :=
  let r := ((p.reverse.dropWhile (· == '/')).dropWhile (· != '/')).dropWhile (· == '/')
  if r ≠ [] then r.reverse else if isAbsolute p then ['/'] else dot

/-- The last name of a path, with the slash after it read as `components` reads it. -/
def lastPart (p : Path) : List Name :=
  let n := ((p.reverse.dropWhile (· == '/')).takeWhile (· != '/')).reverse
  if n = [] then [] else n :: if p.getLast? = some '/' then [dot] else []

theorem apply_head?_dropWhile {f : Char → Bool} {xs : Path} {x : Char}
    (h : (xs.dropWhile f).head? = some x) : f x = false := by
  have hnot := List.head?_dropWhile_not f xs
  rw [h] at hnot
  exact hnot

/-- A path is a directory part without slash at its end, slashes, a name and slashes;
with an empty name there is nothing before it. -/
theorem exists_parts (p : Path) : ∃ q s n a : Path, p = q ++ s ++ n ++ a ∧
    (∀ x ∈ s, x = '/') ∧ (∀ x ∈ a, x = '/') ∧ '/' ∉ n ∧ (n = [] → s = [] ∧ q = []) ∧
    (s = [] → q = []) ∧ q.getLast? ≠ some '/' ∧
    parentOf p = (if q ≠ [] then q else if isAbsolute p then ['/'] else dot) ∧
    lastPart p = if n = [] then [] else n :: if p.getLast? = some '/' then [dot] else [] := by
  set r₁ := p.reverse.dropWhile (· == '/') with hr₁
  set r₂ := r₁.dropWhile (· != '/') with hr₂
  set r₃ := r₂.dropWhile (· == '/') with hr₃
  have hr₁head : r₁.head? ≠ some '/' := fun h => by simpa using apply_head?_dropWhile h
  have hr₂head {x : Char} (h : r₂.head? = some x) : x = '/' := by
    simpa using apply_head?_dropWhile h
  have hr₃head : r₃.head? ≠ some '/' := fun h => by simpa using apply_head?_dropWhile h
  refine ⟨r₃.reverse, (r₂.takeWhile (· == '/')).reverse, (r₁.takeWhile (· != '/')).reverse,
    (p.reverse.takeWhile (· == '/')).reverse, ?_, ?_, ?_, ?_, ?_, ?_, ?_, ?_, ?_⟩
  · rw [← List.reverse_append, ← List.reverse_append, ← List.reverse_append, hr₃,
      List.takeWhile_append_dropWhile, hr₂, List.takeWhile_append_dropWhile, hr₁,
      List.takeWhile_append_dropWhile, List.reverse_reverse]
  · intro x hx
    simpa using List.mem_takeWhile_imp (List.mem_reverse.mp hx)
  · intro x hx
    simpa using List.mem_takeWhile_imp (List.mem_reverse.mp hx)
  · intro hx
    simpa using List.mem_takeWhile_imp (List.mem_reverse.mp hx)
  · intro hn
    have hr₁nil : r₁ = [] := by
      cases h : r₁ with
      | nil => rfl
      | cons x xs =>
        rw [h] at hn hr₁head
        have hx : x ≠ '/' := by simpa using hr₁head
        simp [hx] at hn
    simp [hr₃, hr₂, hr₁nil]
  · intro hs
    by_cases h : r₂ = []
    · simp [hr₃, h]
    · obtain ⟨x, xs, hx⟩ := List.exists_cons_of_ne_nil h
      obtain rfl : x = '/' := hr₂head (by rw [hx, List.head?_cons])
      rw [hx] at hs
      simp at hs
  · rwa [List.getLast?_reverse]
  · simp only [parentOf, ← hr₁, ← hr₂, ← hr₃, ne_eq, List.reverse_eq_nil_iff]
  · simp only [lastPart, ← hr₁]

theorem segments_append_slashes (xs : Path) {ys : Path} (h : ∀ y ∈ ys, y = '/') :
    segments '/' (xs ++ ys) = segments '/' xs := by
  induction ys generalizing xs with
  | nil => simp
  | cons y ys ih =>
    obtain rfl := h y List.mem_cons_self
    have hrest := ih (xs ++ ['/']) fun z hz => h z (List.mem_cons_of_mem _ hz)
    rwa [List.append_assoc, segments_concat_self] at hrest

theorem segments_slashes_append {xs : Path} (h : ∀ x ∈ xs, x = '/') (ys : Path) :
    segments '/' (xs ++ ys) = segments '/' ys := by
  induction xs with
  | nil => rfl
  | cons x xs ih =>
    obtain rfl := h x List.mem_cons_self
    rw [List.cons_append, segments_cons_self]
    exact ih fun z hz => h z (List.mem_cons_of_mem _ hz)

theorem components_of_getLast? {p : Path} (h : p.getLast? ≠ some '/') :
    components p = segments '/' p := by
  rw [components, if_neg h, List.append_nil]

namespace Tree
variable {C : Type u} (t : Tree C)

def lookup (loc : Loc) : Option (Entry C) := t.entries.lookup loc

def isDir (loc : Loc) : Bool :=
  match t.lookup loc with
  | some .dir => true
  | _ => false

def isFile (loc : Loc) : Bool :=
  match t.lookup loc with
  | some (.file _) => true
  | _ => false

def children (loc : Loc) : List Name :=
  t.entries.filterMap fun e => if e.1 ≠ [] ∧ e.1.dropLast = loc then e.1.getLast? else none

def start (p : Path) : Loc := if isAbsolute p then [] else t.cwd

/-- One path without following links: at a link `onLink` takes over. The number is the
links that may still be followed. -/
def walkNames (k : ℕ) (onLink : Loc → List Name → Option (Loc × ℕ)) :
    Loc → List Name → Option (Loc × ℕ)
  | cur, [] => some (cur, k)
  | cur, n :: rest =>
    if t.isDir cur then
      if n = dot then walkNames k onLink cur rest
      else if n = dotdot then walkNames k onLink cur.dropLast rest
      else
        match t.lookup (cur ++ [n]) with
        | some (.link target) =>
          onLink (if isAbsolute target then [] else cur) (components target ++ rest)
        | _ => walkNames k onLink (cur ++ [n]) rest
    else none

def walk : ℕ → Loc → List Name → Option (Loc × ℕ)
  | 0 => t.walkNames 0 fun _ _ => none
  | k + 1 => t.walkNames (k + 1) (walk k)

/-- Where a path leads after at most `links` links; its last name may be missing. -/
def resolve (links : ℕ) (p : Path) : Option Loc :=
  (t.walk links (t.start p) (components p)).map Prod.fst

/-- Where a path leads when there is something, and the links left. -/
def realpath (links : ℕ) (p : Path) : Option (Loc × ℕ) :=
  (t.walk links (t.start p) (components p)).filter fun r => (t.lookup r.1).isSome

theorem walkNames_append {k : ℕ} {onLink : Loc → List Name → Option (Loc × ℕ)}
    {next : ℕ → Loc → List Name → Option (Loc × ℕ)}
    (ys : List Name) (hnext : ∀ cur, t.walkNames k onLink cur ys = next k cur ys)
    (hlink : ∀ cur xs, onLink cur (xs ++ ys) =
      (onLink cur xs).bind fun r => next r.2 r.1 ys) (cur : Loc) (xs : List Name) :
    t.walkNames k onLink cur (xs ++ ys) =
      (t.walkNames k onLink cur xs).bind fun r => next r.2 r.1 ys := by
  induction xs generalizing cur with
  | nil => exact hnext cur
  | cons n rest ih =>
    simp only [List.cons_append, walkNames]
    split
    · split
      · exact ih cur
      · split
        · exact ih cur.dropLast
        · split
          · rw [← List.append_assoc]
            exact hlink _ _
          · exact ih (cur ++ [n])
    · rfl

theorem walk_append (k : ℕ) (cur : Loc) (xs ys : List Name) :
    t.walk k cur (xs ++ ys) = (t.walk k cur xs).bind fun r => t.walk r.2 r.1 ys := by
  induction k generalizing cur xs with
  | zero => exact t.walkNames_append ys (fun _ => rfl) (fun _ _ => rfl) cur xs
  | succ k ih => exact t.walkNames_append ys (fun _ => rfl) ih cur xs

theorem walk_nil (k : ℕ) (cur : Loc) : t.walk k cur [] = some (cur, k) := by
  cases k <;> rfl

theorem walk_of_not_isDir {k : ℕ} {cur : Loc} (h : t.isDir cur = false) (n : Name)
    (rest : List Name) : t.walk k cur (n :: rest) = none := by
  cases k <;> simp [walk, walkNames, h]

theorem walk_dot {k : ℕ} {cur : Loc} (h : t.isDir cur = true) :
    t.walk k cur [dot] = some (cur, k) := by
  cases k <;> simp [walk, walkNames, h]

theorem walk_dotdot {k : ℕ} {cur : Loc} (h : t.isDir cur = true) :
    t.walk k cur [dotdot] = some (cur.dropLast, k) := by
  cases k <;> simp [walk, walkNames, h, dot, dotdot]

theorem walk_name {k : ℕ} {cur : Loc} (h : t.isDir cur = true) {n : Name} (hdot : n ≠ dot)
    (hdotdot : n ≠ dotdot) (hlink : ∀ target, t.lookup (cur ++ [n]) ≠ some (.link target)) :
    t.walk k cur [n] = some (cur ++ [n], k) := by
  cases k <;>
  · simp only [walk, walkNames, h, if_true, if_neg hdot, if_neg hdotdot]

theorem isDir_root : t.isDir [] = true := by
  simp only [isDir, lookup, t.root_dir]

theorem isDir_start (p : Path) : t.isDir (t.start p) = true := by
  unfold start
  split
  · exact t.isDir_root
  · simp only [isDir, lookup, t.cwd_dir]

theorem walk_start_dot (k : ℕ) (p : Path) :
    t.walk k (t.start p) [dot] = some (t.start p, k) :=
  t.walk_dot (t.isDir_start p)

theorem walk_components (k : ℕ) (p : Path) : t.walk k (t.start p) (components p) =
    (t.walk k (t.start (parentOf p)) (components (parentOf p))).bind fun r =>
      t.walk r.2 r.1 (lastPart p) := by
  obtain ⟨q, s, n, a, hp, hs, ha, hn, hempty, hsep, hq, hparent, hlast⟩ := exists_parts p
  have hparts : components p =
      segments '/' q ++ if n = [] then
        if p.getLast? = some '/' then [dot] else []
      else n :: if p.getLast? = some '/' then [dot] else [] := by
    rw [components, hp, segments_append_slashes _ ha, ← hp]
    by_cases hnil : n = []
    · obtain ⟨rfl, rfl⟩ := hempty hnil
      simp [hnil]
    · have hsegments : segments '/' (q ++ s ++ n) = segments '/' q ++ [n] := by
        rw [← segments_of_not_mem hn hnil]
        cases s with
        | nil => rw [hsep rfl]; simp
        | cons x s' =>
          obtain rfl := hs x List.mem_cons_self
          rw [List.append_assoc, List.cons_append, segments_append_cons,
            segments_slashes_append fun y hy => hs y (List.mem_cons_of_mem _ hy)]
      rw [hsegments, if_neg hnil, List.append_assoc, List.singleton_append]
  by_cases hqnil : q = []
  · have hparentWalk : t.walk k (t.start (parentOf p)) (components (parentOf p)) =
        some (t.start p, k) := by
      rw [hparent, if_neg (not_not_intro hqnil)]
      cases habs : isAbsolute p with
      | true =>
        have hstart : t.start p = t.start ['/'] := if_pos habs
        rw [if_pos rfl, hstart]
        exact t.walk_start_dot k ['/']
      | false =>
        have hstart : t.start p = t.start dot := by
          rw [start, habs]
          rfl
        rw [if_neg Bool.false_ne_true, hstart]
        exact t.walk_start_dot k dot
    rw [hparentWalk, Option.bind_some, hparts, hlast, hqnil, segments_nil, List.nil_append]
    by_cases hnil : n = []
    · rw [if_pos hnil, if_pos hnil, walk_nil]
      split
      · exact t.walk_start_dot k p
      · exact t.walk_nil k _
    · rw [if_neg hnil, if_neg hnil]
  · have hnil : n ≠ [] := fun h => hqnil (hempty h).2
    have hstart : t.start q = t.start p := by
      obtain ⟨x, q', rfl⟩ := List.exists_cons_of_ne_nil hqnil
      simp [start, isAbsolute, hp]
    rw [hparent, if_pos hqnil, components_of_getLast? hq, hstart, hparts, hlast, if_neg hnil,
      if_neg hnil, walk_append]

theorem isDir_iff {loc : Loc} : t.isDir loc = true ↔ t.lookup loc = some .dir := by
  unfold isDir
  split <;> simp_all

theorem isDir_dropLast {loc : Loc} (h : t.isDir loc = true) : t.isDir loc.dropLast = true := by
  by_cases hnil : loc = []
  · rwa [hnil] at h ⊢
  · rw [isDir_iff] at h ⊢
    obtain ⟨l₁, l₂, hentries, -⟩ := List.lookup_eq_some_iff.mp h
    refine t.parent_dir (loc, .dir) ?_ hnil
    rw [hentries]
    simp

end Tree
end PosixTree
